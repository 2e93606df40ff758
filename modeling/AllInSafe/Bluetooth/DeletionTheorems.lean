import AllInSafe.Bluetooth.TrustDevice
import AllInSafe.Library.Positions

/-!
# Deletions of trusted devices

A deletion takes its position when it is tapped and uses it when it resumes. Every deletion removes its device and no
other one in exactly those runs in which the position is still right whenever a successful deletion resumes.
-/

namespace AllInSafe.Bluetooth.TrustDevice
open AllInSafe.Library

/-! ## Lists -/

def Screen.addresses (s : Screen) : List Str := s.trustedDeviceList.map Device.address

/-- The list has exactly the stored trusted devices that are bonded, each once. -/
structure Screen.Exact (s : Screen) : Prop where
  nodup : s.addresses.Nodup
  toFinset_eq : s.addresses.toFinset = s.trusted ∩ s.bondedDevices.addresses

/-- The position of the deletion is the one of its device, or the device is gone and the position is behind the end. -/
def Deletion.Finds (list : List Str) (d : Deletion) : Prop :=
  0 ≤ d.position ∧
    (list[d.position.toNat]? = some d.device.address ∨
      d.device.address ∉ list ∧ list.length ≤ d.position.toNat)

instance {list : List Str} : DecidablePred (Deletion.Finds list) := fun d => by
  unfold Deletion.Finds
  infer_instance

/-- Whenever a successful deletion resumes, its position is right. -/
def FindsDevice (s : Screen) : Event → Prop
  | .resume i => ∀ d ∈ s.deletions[i]?, d.unpairSuccess = some true → d.Finds s.addresses
  | _ => True

instance (s : Screen) : DecidablePred (FindsDevice s)
  | .resume i => inferInstanceAs (Decidable (∀ d ∈ s.deletions[i]?, d.unpairSuccess = some true → d.Finds s.addresses))
  | .tap _ | .unpair .. | .reload .. | .post | .layout | .selectTab _ => .isTrue trivial

/-- The deletion has removed its device and no other one, and the screen is still there. -/
def Removes (d : Deletion) (s s' : Screen) : Prop :=
  s'.crashed = false ∧ d.device.address ∉ s'.addresses ∧
    ∀ address ∈ s.addresses, address ≠ d.device.address → address ∈ s'.addresses

section
variable {s s' : Screen} {d : Deletion} {e : Event}

/-! ## Deletions -/

/-- What a successful deletion does when it resumes: the removal at its position, or the exception. -/
theorem resume_cases (h : s.crashed = false) :
    (0 ≤ d.position ∧ (s.resumeDeletion d true).crashed = false ∧
      (s.resumeDeletion d true).addresses = s.addresses.eraseIdx d.position.toNat) ∨
    (d.position < 0 ∧ (s.resumeDeletion d true).crashed = true) := by
  by_cases hposition : 0 ≤ d.position
  · left
    refine ⟨hposition, ?_⟩
    by_cases hlt : d.position < s.trustedDeviceList.length
    · simp [Screen.resumeDeletion, removeAt, hposition, hlt, Screen.updateData, Screen.addresses, h, List.eraseIdx_map]
    · have hlen : s.trustedDeviceList.length ≤ d.position.toNat := by omega
      simp [Screen.resumeDeletion, removeAt, hlt, Screen.updateData, Screen.addresses, h,
        List.eraseIdx_of_length_le, hlen]
  · right
    have hneg : d.position < s.trustedDeviceList.length := by omega
    exact ⟨by omega, by simp [Screen.resumeDeletion, removeAt, hposition, hneg]⟩

/-- A deletion removes exactly its device when its position is right. -/
theorem removes_iff_finds (h : s.crashed = false) (hexact : s.Exact) :
    Removes d s (s.resumeDeletion d true) ↔ d.Finds s.addresses := by
  rcases @resume_cases s d h with ⟨hposition, hcrashed, haddresses⟩ | ⟨hposition, hcrashed⟩
  · simp only [Removes, hcrashed, haddresses, true_and, Deletion.Finds, hposition]
    exact eraseIdx_removes_iff hexact.nodup
  · simp [Removes, hcrashed, Deletion.Finds, hposition]

theorem resumeDeletion_trusted : (s.resumeDeletion d true).trusted = s.trusted.erase d.device.address := by
  simp only [Screen.resumeDeletion, if_true]
  split <;> rfl

theorem resumeDeletion_bondedDevices : (s.resumeDeletion d true).bondedDevices = s.bondedDevices := by
  simp only [Screen.resumeDeletion, if_true]
  split <;> rfl

/-- A deletion that finds its device keeps the list exact. -/
theorem exact_resume (h : s.crashed = false) (hexact : s.Exact) (hfinds : d.Finds s.addresses) :
    (s.resumeDeletion d true).Exact := by
  obtain ⟨hcrashed, hgone, hothers⟩ := (removes_iff_finds h hexact).mpr hfinds
  rcases @resume_cases s d h with ⟨-, -, haddresses⟩ | ⟨-, hcrash⟩
  · rw [haddresses] at hgone hothers
    constructor
    · rw [haddresses]
      exact hexact.nodup.eraseIdx _
    · rw [haddresses, resumeDeletion_trusted, resumeDeletion_bondedDevices, Finset.erase_inter, ← hexact.toFinset_eq]
      ext address
      simp only [List.mem_toFinset, Finset.mem_erase]
      constructor
      · intro hin
        exact ⟨fun heq => hgone (heq ▸ hin), List.mem_of_mem_eraseIdx hin⟩
      · rintro ⟨hne, hin⟩
        exact hothers address hin hne
  · rw [hcrash] at hcrashed
    cases hcrashed

/-! ## Reloads -/

theorem find_address {b : BondedDevices} {address : Str} {it : BluetoothDevice} (h : b.find address = some it) :
    it.address = address := by
  simpa using List.find?_some h

theorem exists_find {b : BondedDevices} {address : Str} (h : address ∈ b.addresses) :
    ∃ it, b.find address = some it := by
  simp only [BondedDevices.addresses, List.mem_toFinset, List.mem_map] at h
  obtain ⟨it, hit, haddress⟩ := h
  apply Option.isSome_iff_exists.mp
  rw [BondedDevices.find, List.find?_isSome]
  exact ⟨it, hit, by simpa using haddress⟩

/-- After the synchronisation the stored trusted addresses are the bonded ones. -/
theorem syncTrusted_eq : s.syncTrusted = s.bondedDevices.addresses := by
  have hstored : (if (s.trusted \ s.bondedDevices.addresses).Nonempty
      then s.trusted \ (s.trusted \ s.bondedDevices.addresses) else s.trusted) =
        s.trusted ∩ s.bondedDevices.addresses := by
    split_ifs with hgone
    · exact Finset.sdiff_sdiff_self_left _ _
    · rw [Finset.not_nonempty_iff_eq_empty, Finset.sdiff_eq_empty_iff_subset] at hgone
      exact (Finset.inter_eq_left.mpr hgone).symm
  simp only [Screen.syncTrusted, hstored]
  split_ifs with hnew
  · exact Finset.union_sdiff_of_subset Finset.inter_subset_right
  · rw [Finset.not_nonempty_iff_eq_empty, Finset.sdiff_eq_empty_iff_subset] at hnew
    exact Finset.Subset.antisymm Finset.inter_subset_right hnew

theorem map_filterMap_find {b : BondedDevices} {device : BluetoothDevice → Device} {order : List Str}
    (hdevice : ∀ it, (device it).address = it.address) (h : ∀ address ∈ order, address ∈ b.addresses) :
    (order.filterMap fun address => (b.find address).map device).map Device.address = order := by
  induction order with
  | nil => rfl
  | cons address order ih =>
      obtain ⟨haddress, horder⟩ := List.forall_mem_cons.mp h
      obtain ⟨it, hit⟩ := exists_find haddress
      simp [hit, hdevice, find_address hit, ih horder]

/-- A reload lists the bonded devices in the order of the stored set. -/
theorem addresses_load {order blockedOrder : List Str} (h : ∀ address ∈ order, address ∈ s.bondedDevices.addresses) :
    (s.loadDeviceLists order blockedOrder).addresses = order :=
  map_filterMap_find (fun _ => rfl) h

theorem exact_reload {order blockedOrder : List Str} (h : Iterates order s.syncTrusted) :
    (s.syncAndLoadDeviceLists order blockedOrder).Exact := by
  obtain ⟨hnodup, hset⟩ := h
  rw [syncTrusted_eq] at hset
  have hload : (s.syncAndLoadDeviceLists order blockedOrder).addresses = order := by
    apply addresses_load
    intro address haddress
    exact hset ▸ List.mem_toFinset.mpr haddress
  constructor
  · rw [hload]
    exact hnodup
  · rw [hload, hset]
    simp only [Screen.syncAndLoadDeviceLists, Screen.loadDeviceLists, syncTrusted_eq, Finset.inter_self]

/-! ## Steps -/

theorem Screen.Exact.congr (h : s.Exact) (hlist : s'.trustedDeviceList = s.trustedDeviceList)
    (htrusted : s'.trusted = s.trusted) (hbonded : s'.bondedDevices = s.bondedDevices) : s'.Exact := by
  have haddresses : s'.addresses = s.addresses := by simp [Screen.addresses, hlist]
  exact ⟨haddresses ▸ h.nodup, by rw [haddresses, htrusted, hbonded]; exact h.toFinset_eq⟩

theorem exact_handleDeviceDeletion {device : Device} {position : Int} (h : s.Exact) :
    (s.handleDeviceDeletion device position).Exact := by
  simp only [Screen.handleDeviceDeletion]
  cases device.type with
  | TRUSTED => exact h.congr rfl rfl rfl
  | BLOCKED =>
      dsimp only
      split <;> exact h.congr rfl rfl rfl

theorem handle_of_step (h : s.step e = some s') : s.crashed = false ∧ s.handle e = some s' := by
  unfold Screen.step at h
  cases hcrashed : s.crashed with
  | true => simp [hcrashed] at h
  | false => exact ⟨rfl, by simpa [hcrashed] using h⟩

/-- Every step that meets `FindsDevice` keeps the list exact, also while deletions are under way. -/
theorem exact_step (h : s.Exact) (hfinds : FindsDevice s e) (hstep : s.step e = some s') : s'.Exact := by
  obtain ⟨hcrashed, hstep⟩ := handle_of_step hstep
  cases e with
  | tap i =>
      obtain ⟨device, -, rfl⟩ := Option.map_eq_some_iff.mp hstep
      exact exact_handleDeviceDeletion h
  | unpair i removeBond =>
      obtain ⟨d, -, hd⟩ := Option.bind_eq_some_iff.mp hstep
      split at hd
      · cases hd
        exact h.congr rfl rfl rfl
      · cases hd
  | resume i =>
      obtain ⟨d, hd, hresult⟩ := Option.bind_eq_some_iff.mp hstep
      obtain ⟨unpairSuccess, hsuccess, rfl⟩ := Option.map_eq_some_iff.mp hresult
      have hrest : { s with deletions := s.deletions.eraseIdx i }.Exact := h.congr rfl rfl rfl
      cases unpairSuccess with
      | false => exact hrest
      | true => exact exact_resume hcrashed hrest (hfinds d hd hsuccess)
  | reload bondedDevices trustedAddresses blockedAddresses =>
      simp only [Screen.handle] at hstep
      split_ifs at hstep with horders
      cases hstep
      exact exact_reload horders.1
  | post =>
      simp only [Screen.handle] at hstep
      split_ifs at hstep
      cases hstep
      exact h.congr rfl rfl rfl
  | layout => cases hstep; exact h.congr rfl rfl rfl
  | selectTab type => cases hstep; exact h.congr rfl rfl rfl

/-- What a deletion whose unpairing has succeeded does when it resumes. -/
theorem step_resume {i : Nat} (hd : s.deletions[i]? = some d) (hsuccess : d.unpairSuccess = some true)
    (hstep : s.step (.resume i) = some s') :
    s.crashed = false ∧ s' = { s with deletions := s.deletions.eraseIdx i }.resumeDeletion d true := by
  obtain ⟨hcrashed, hstep⟩ := handle_of_step hstep
  simp only [Screen.handle, hd, hsuccess, Option.bind_some, Option.map_some, Option.some.injEq] at hstep
  exact ⟨hcrashed, hstep.symm⟩

/-- Whenever a successful deletion resumes, it removes its device and no other one. -/
def RemovesDevice (s : Screen) : Event → Prop
  | .resume i => ∀ d ∈ s.deletions[i]?, d.unpairSuccess = some true → ∀ s' ∈ s.step (.resume i), Removes d s s'
  | _ => True

theorem removesDevice_iff (h : s.Exact) (hstep : s.step e = some s') : RemovesDevice s e ↔ FindsDevice s e := by
  cases e with
  | resume i =>
      simp only [RemovesDevice, FindsDevice]
      refine forall_congr' fun d => forall_congr' fun hd => forall_congr' fun hsuccess => ?_
      obtain ⟨hcrashed, rfl⟩ := step_resume hd hsuccess hstep
      have hremoves := @removes_iff_finds { s with deletions := s.deletions.eraseIdx i } d hcrashed
        (h.congr rfl rfl rfl)
      constructor
      · exact fun hsafe => hremoves.mp (hsafe _ hstep)
      · intro hfinds u hu
        cases Option.some.inj (hstep.symm.trans hu)
        exact hremoves.mpr hfinds
  | _ => exact Iff.rfl

end

/-! ## Runs -/

variable {start s : Screen} {es : List Event}

variable (start) in
/-- What the deletions of a run are meant to do: the list is exact whenever all of them have completed, and every
successful one removes its device and no other one. -/
def DeletesSafely (es : List Event) : Prop :=
  (∀ as bs t, es = as ++ bs → (trustScreen start).runFrom start as = some t → t.deletions = [] → t.Exact) ∧
    (trustScreen start).StepsMeet RemovesDevice start es

/-- From any screen whose list is exact, the deletions of a run are safe exactly when every step of it meets
`FindsDevice`. -/
theorem deletesSafely_iff (hstart : start.Exact) (hrun : (trustScreen start).runFrom start es = some s) :
    DeletesSafely start es ↔ (trustScreen start).StepsMeet FindsDevice start es := by
  have hiff : (trustScreen start).StepsMeet RemovesDevice start es ↔
      (trustScreen start).StepsMeet FindsDevice start es :=
    Machine.stepsMeet_congr (I := Screen.Exact)
      (fun _ _ _ h hstep => ⟨removesDevice_iff h hstep, fun hfinds => exact_step h hfinds hstep⟩) hstart hrun
  constructor
  · exact fun h => hiff.mp h.2
  · intro hfinds
    refine ⟨?_, hiff.mpr hfinds⟩
    rintro as bs t rfl ht -
    exact hfinds.append_left.invariant (I := Screen.Exact) (fun _ _ _ h hgood hs => exact_step h hgood hs) hstart ht

/-! ## Three trusted devices -/

def bonded (addresses : List Str) : BondedDevices :=
  if h : ((addresses.map fun address => BluetoothDevice.mk address none).map BluetoothDevice.address).Nodup
  then ⟨_, h⟩ else ⟨[], .nil⟩

def listed (address : Str) : Device := ⟨"?".toList, address, .TRUSTED⟩

/-- The screen with its list laid out. -/
def threeTrusted : Screen where
  bondedDevices := bonded ["A".toList, "B".toList, "C".toList]
  trusted := {"A".toList, "B".toList, "C".toList}
  trustedDeviceList := [listed "A".toList, listed "B".toList, listed "C".toList]
  devices := [listed "A".toList, listed "B".toList, listed "C".toList]
  rows := [listed "A".toList, listed "B".toList, listed "C".toList]

theorem exact_threeTrusted : threeTrusted.Exact := ⟨by decide, by decide⟩

/-- Two deletions one after the other, each with the reload that its unpairing causes. -/
def oneByOne : List Event :=
  [.tap 1, .unpair 0 true, .resume 0, .reload (bonded ["A".toList, "C".toList]) ["A".toList, "C".toList] [], .post,
    .layout, .tap 0, .unpair 0 true, .resume 0, .reload (bonded ["C".toList]) ["C".toList] []]

theorem oneByOne_safe : DeletesSafely threeTrusted oneByOne :=
  (deletesSafely_iff exact_threeTrusted (Option.eq_some_of_isSome (by decide))).mpr (by decide)

/-- Two deletions at a time, whose unpairings cause their reloads before they resume: the third device is gone from the
list. -/
def atOnce : List Event :=
  [.tap 0, .tap 1, .unpair 0 true, .unpair 1 true,
    .reload (bonded ["B".toList, "C".toList]) ["B".toList, "C".toList] [],
    .reload (bonded ["C".toList]) ["C".toList] [], .resume 0, .resume 0]

theorem third_device_gone : threeTrusted.Exact ∧ ¬ DeletesSafely threeTrusted atOnce := by
  refine ⟨exact_threeTrusted, fun h => ?_⟩
  have hexact := h.1 atOnce [] _ (List.append_nil _).symm (Option.eq_some_of_isSome (by decide)) (by decide)
  exact absurd hexact.toFinset_eq (by decide)

end AllInSafe.Bluetooth.TrustDevice
