import AllInSafe.Bluetooth.MainActivity

/-!
# Trusted and blocked devices

No handler of `BluetoothMainActivity` takes an address out of the other set. The sets stay disjoint in exactly those
runs in which no blocked address connects or is bonded, and no trusted address fails to bond.
-/

namespace AllInSafe.Bluetooth
open AllInSafe.Library

/-! ## Intents -/

/-- The address that an intent makes trusted. -/
def Intent.trusts : Intent → Option Str
  | .aclConnected dev => dev
  | .bondStateChanged dev prev curr =>
      if prev = BOND_BONDING ∧ curr = BOND_NONE then none else if curr = BOND_BONDED then dev else none
  | .pairingRequest | .aclDisconnected _ => none

/-- The address that an intent blocks. -/
def Intent.blocks : Intent → Option Str
  | .bondStateChanged dev prev curr => if prev = BOND_BONDING ∧ curr = BOND_NONE then dev else none
  | .pairingRequest | .aclConnected _ | .aclDisconnected _ => none

theorem trusts_or_blocks (intent : Intent) : intent.trusts = none ∨ intent.blocks = none := by
  cases intent with
  | bondStateChanged dev prev curr =>
      simp only [Intent.trusts, Intent.blocks]
      split_ifs <;> simp
  | _ => simp [Intent.blocks]

/-- The sets of an activity after an intent. -/
def DeviceLists.receive (intent : Intent) (lists : DeviceLists) : DeviceLists where
  trustedDevices := lists.trustedDevices ∪ intent.trusts.toFinset
  blockedDevices := lists.blockedDevices ∪ intent.blocks.toFinset

section
variable {intent : Intent} {lists prefs : DeviceLists} {address : Str} {a : MainActivity}

/-- An intent adds to one set at most. -/
theorem onReceive_eq (intent : Intent) (a : MainActivity) : a.onReceive intent =
    match intent.blocks, intent.trusts with
    | some address, _ => a.addBlockedDevice address
    | none, some address => a.addTrustedDevice address
    | none, none => a := by
  cases intent with
  | pairingRequest => rfl
  | aclConnected dev => cases dev <;> rfl
  | aclDisconnected dev => rfl
  | bondStateChanged dev prev curr =>
      simp only [MainActivity.onReceive, MainActivity.handleBondStateChanged, Intent.blocks, Intent.trusts]
      cases dev <;> split_ifs <;> rfl

/-- The sets of the activity take the address. They are saved unless they had it. -/
theorem onReceive_cases (intent : Intent) (a : MainActivity) :
    (a.onReceive intent).lists = a.lists.receive intent ∧
      ((a.onReceive intent).prefs = a.prefs ∧ a.lists.receive intent = a.lists ∨
        (a.onReceive intent).prefs = a.lists.receive intent) := by
  rw [onReceive_eq]
  cases hblocks : intent.blocks with
  | some address =>
      have htrusts : intent.trusts = none := (trusts_or_blocks intent).resolve_right (by simp [hblocks])
      by_cases hin : address ∈ a.lists.blockedDevices
      · simp [MainActivity.addBlockedDevice, DeviceLists.receive, hblocks, htrusts, hin]
      · simp [MainActivity.addBlockedDevice, MainActivity.saveDeviceLists, DeviceLists.receive, hblocks, htrusts, hin]
  | none =>
      cases htrusts : intent.trusts with
      | some address =>
          by_cases hin : address ∈ a.lists.trustedDevices
          · simp [MainActivity.addTrustedDevice, DeviceLists.receive, hblocks, htrusts, hin]
          · simp [MainActivity.addTrustedDevice, MainActivity.saveDeviceLists, DeviceLists.receive, hblocks, htrusts,
              hin]
      | none => simp [DeviceLists.receive, hblocks, htrusts]

/-! ## Broadcasts -/

variable {activities : List DeviceLists}

theorem deliver_activities : (deliver intent prefs activities).2 = activities.map (DeviceLists.receive intent) := by
  induction activities generalizing prefs with
  | nil => rfl
  | cons lists rest ih => simp [deliver, ih, (onReceive_cases intent ⟨lists, prefs⟩).1]

/-- What is saved in the end is what was saved before or what an activity has. -/
theorem deliver_prefs : (deliver intent prefs activities).1 = prefs ∨
    (deliver intent prefs activities).1 ∈ activities.map (DeviceLists.receive intent) := by
  induction activities generalizing prefs with
  | nil => exact .inl rfl
  | cons lists rest ih =>
      simp only [deliver, List.map_cons, List.mem_cons]
      rcases @ih (MainActivity.onReceive intent ⟨lists, prefs⟩).prefs with hrest | hrest
      · rw [hrest]
        rcases (onReceive_cases intent ⟨lists, prefs⟩).2 with ⟨hkept, -⟩ | hsaved
        · exact .inl hkept
        · exact .inr (.inl hsaved)
      · exact .inr (.inr hrest)

/-- Where all activities have the blocked addresses of the preferences, they have them after a broadcast. -/
theorem deliver_blocked {blocked : Finset Str} (hall : ∀ lists ∈ activities, lists.blockedDevices = blocked)
    (hprefs : prefs.blockedDevices = blocked ∨ prefs.blockedDevices = blocked ∪ intent.blocks.toFinset)
    (hsome : activities ≠ []) :
    (deliver intent prefs activities).1.blockedDevices = blocked ∪ intent.blocks.toFinset := by
  induction activities generalizing prefs with
  | nil => exact absurd rfl hsome
  | cons lists rest ih =>
      obtain ⟨hlists, hrest⟩ := List.forall_mem_cons.mp hall
      have hreceived : (lists.receive intent).blockedDevices = blocked ∪ intent.blocks.toFinset := by
        simp [DeviceLists.receive, hlists]
      have hsaved : (MainActivity.onReceive intent ⟨lists, prefs⟩).prefs.blockedDevices =
          blocked ∪ intent.blocks.toFinset := by
        rcases (onReceive_cases intent ⟨lists, prefs⟩).2 with ⟨hkept, hsame⟩ | hnew
        · rw [hkept]
          have hunion : blocked ∪ intent.blocks.toFinset = blocked := by
            rw [← hreceived, show lists.receive intent = lists from hsame, hlists]
          rcases hprefs with h | h
          · exact h.trans hunion.symm
          · exact h
        · rw [hnew]
          exact hreceived
      cases rest with
      | nil => exact hsaved
      | cons other rest => exact ih hrest (.inr hsaved) (List.cons_ne_nil _ _)

end

/-! ## Apart -/

def DeviceLists.Apart (lists : DeviceLists) : Prop := Disjoint lists.trustedDevices lists.blockedDevices

instance : DecidablePred DeviceLists.Apart := fun lists => by unfold DeviceLists.Apart; infer_instance

/-- No address is both trusted and blocked, in the preferences and in every activity. -/
def Phone.Apart (s : Phone) : Prop := ∀ lists ∈ s.prefs :: s.activities, lists.Apart

def Phone.Trusts (s : Phone) (address : Str) : Prop :=
  ∃ lists ∈ s.prefs :: s.activities, address ∈ lists.trustedDevices

def Phone.Blocks (s : Phone) (address : Str) : Prop :=
  ∃ lists ∈ s.prefs :: s.activities, address ∈ lists.blockedDevices

/-- No activity that gets the intent has its address in the other set. -/
def Keeps (s : Phone) : Event → Prop
  | .broadcast intent => ∀ lists ∈ s.activities,
      (∀ address ∈ intent.trusts, address ∉ lists.blockedDevices) ∧
      ∀ address ∈ intent.blocks, address ∉ lists.trustedDevices
  | .start _ | .destroy _ => True

instance (s : Phone) : DecidablePred (Keeps s)
  | .broadcast _ => inferInstanceAs (Decidable (∀ lists ∈ s.activities, _ ∧ _))
  | .start _ | .destroy _ => .isTrue trivial

section
variable {s s' : Phone} {intent : Intent} {lists : DeviceLists} {e : Event} {stored : DeviceLists}

theorem apart_receive_iff (h : lists.Apart) : (lists.receive intent).Apart ↔
    (∀ address ∈ intent.trusts, address ∉ lists.blockedDevices) ∧
      ∀ address ∈ intent.blocks, address ∉ lists.trustedDevices := by
  unfold DeviceLists.Apart at *
  rcases trusts_or_blocks intent with hnone | hnone
  · cases hblocks : intent.blocks <;> simp [DeviceLists.receive, hnone, hblocks, h]
  · cases htrusts : intent.trusts <;> simp [DeviceLists.receive, hnone, htrusts, h]

/-- A step that does not meet `Keeps` brings an address into both sets of an activity, every other one keeps them
apart. -/
theorem apart_step (h : s.Apart) (hstep : s.step e = some s') : s'.Apart ↔ Keeps s e := by
  obtain ⟨hprefs, hactivities⟩ := List.forall_mem_cons.mp h
  cases e with
  | start bondedDevices =>
      cases hstep
      refine iff_of_true ?_ trivial
      intro lists hlists
      simp only [List.mem_cons, List.mem_append, List.not_mem_nil, or_false] at hlists
      rcases hlists with rfl | hlists | rfl
      · exact hprefs
      · exact hactivities lists hlists
      · exact Disjoint.mono_left Finset.inter_subset_left hprefs
  | destroy i =>
      simp only [Phone.step] at hstep
      split_ifs at hstep
      cases hstep
      refine iff_of_true ?_ trivial
      intro lists hlists
      rcases List.mem_cons.mp hlists with rfl | hlists
      · exact hprefs
      · exact hactivities lists (List.mem_of_mem_eraseIdx hlists)
  | broadcast intent =>
      cases hstep
      simp only [Phone.Apart, deliver_activities, Keeps, List.forall_mem_cons, List.forall_mem_map]
      constructor
      · rintro ⟨-, hall⟩ lists hlists
        exact (apart_receive_iff (hactivities lists hlists)).mp (hall lists hlists)
      · intro hkeeps
        have hall : ∀ lists ∈ s.activities, (lists.receive intent).Apart := fun lists hlists =>
          (apart_receive_iff (hactivities lists hlists)).mpr (hkeeps lists hlists)
        refine ⟨?_, hall⟩
        rcases @deliver_prefs intent s.prefs s.activities with hkept | hsaved
        · rw [hkept]
          exact hprefs
        · obtain ⟨lists, hlists, heq⟩ := List.mem_map.mp hsaved
          rw [← heq]
          exact hall lists hlists

/-! ## Blocked addresses -/

/-- Every activity has the blocked addresses of the preferences. -/
def Phone.SameBlocked (s : Phone) : Prop :=
  ∀ lists ∈ s.activities, lists.blockedDevices = s.prefs.blockedDevices

theorem Phone.SameBlocked.blocks_iff {address : Str} (h : s.SameBlocked) :
    s.Blocks address ↔ address ∈ s.prefs.blockedDevices := by
  constructor
  · rintro ⟨lists, hlists, haddress⟩
    rcases List.mem_cons.mp hlists with rfl | hlists
    · exact haddress
    · exact h lists hlists ▸ haddress
  · exact fun haddress => ⟨s.prefs, List.mem_cons_self, haddress⟩

/-- A blocked address stays blocked. -/
theorem sameBlocked_step (h : s.SameBlocked) (hstep : s.step e = some s') :
    s'.SameBlocked ∧ s.prefs.blockedDevices ⊆ s'.prefs.blockedDevices := by
  cases e with
  | start bondedDevices =>
      cases hstep
      refine ⟨fun lists hlists => ?_, Finset.Subset.refl _⟩
      rcases List.mem_append.mp hlists with hlists | hlists
      · exact h lists hlists
      · obtain rfl := List.mem_singleton.mp hlists
        rfl
  | destroy i =>
      simp only [Phone.step] at hstep
      split_ifs at hstep
      cases hstep
      exact ⟨fun lists hlists => h lists (List.mem_of_mem_eraseIdx hlists), Finset.Subset.refl _⟩
  | broadcast intent =>
      cases hstep
      simp only [Phone.SameBlocked, deliver_activities, List.forall_mem_map]
      by_cases hsome : s.activities = []
      · simp [hsome, deliver]
      · have hblocked := @deliver_blocked intent s.prefs s.activities _ h (.inl rfl) hsome
        rw [hblocked]
        exact ⟨fun lists hlists => by simp [DeviceLists.receive, h lists hlists], Finset.subset_union_left⟩

/-! ## Connections -/

variable (stored) in
/-- What a run of the activities is meant to keep: no address is ever both trusted and blocked, and a connection makes
no address trusted that has been blocked before. -/
def StaysApart (es : List Event) : Prop :=
  (∀ as bs t, es = as ++ bs → (phone stored).runFrom (phone stored).init as = some t → t.Apart) ∧
  ∀ as bs cs address t u v, es = as ++ bs ++ .broadcast (.aclConnected (some address)) :: cs →
    (phone stored).runFrom (phone stored).init as = some t → t.Blocks address →
    (phone stored).runFrom t bs = some u → u.step (.broadcast (.aclConnected (some address))) = some v →
    v.Trusts address → u.Trusts address

theorem phone_apart (h : stored.Apart) : (phone stored).init.Apart := by
  simpa [phone, Phone.Apart] using h

theorem phone_sameBlocked : (phone stored).init.SameBlocked := by
  intro lists hlists
  cases hlists

/-- A connection of a blocked address reaches no activity where the step meets `Keeps`. -/
theorem not_trusted_of_keeps {address : Str} (h : s.SameBlocked) (hblocked : address ∈ s.prefs.blockedDevices)
    (hkeeps : Keeps s (.broadcast (.aclConnected (some address))))
    (hstep : s.step (.broadcast (.aclConnected (some address))) = some s') (htrusted : s'.Trusts address) :
    s.Trusts address := by
  have hnone : s.activities = [] := by
    rw [List.eq_nil_iff_forall_not_mem]
    intro lists hlists
    exact (hkeeps lists hlists).1 address rfl (h lists hlists ▸ hblocked)
  cases hstep
  simpa [Phone.Trusts, hnone, deliver] using htrusted

/-- From disjoint stored sets, a run stays apart exactly when every step of it meets `Keeps`. -/
theorem staysApart_iff {es : List Event} {s : Phone} (hstored : stored.Apart)
    (hrun : (phone stored).runFrom (phone stored).init es = some s) :
    StaysApart stored es ↔ (phone stored).StepsMeet Keeps (phone stored).init es := by
  have hiff : (∀ as bs t, es = as ++ bs → (phone stored).runFrom (phone stored).init as = some t → t.Apart) ↔
      (phone stored).StepsMeet Keeps (phone stored).init es :=
    Machine.always_iff (fun _ h => h) (fun _ _ _ h hstep => ⟨(apart_step h hstep).mp, (apart_step h hstep).mpr⟩)
      (phone_apart hstored) hrun
  constructor
  · exact fun h => hiff.mp h.1
  · intro hmeet
    refine ⟨hiff.mpr hmeet, ?_⟩
    rintro as bs cs address t u v rfl ht hblocks hu hstep htrusted
    have hsame : t.SameBlocked :=
      Machine.invariant (I := Phone.SameBlocked) (fun _ _ _ h hs => (sameBlocked_step h hs).1) phone_sameBlocked ht
    -- what is blocked in one state is blocked in every later one
    have hlater : u.SameBlocked ∧ address ∈ u.prefs.blockedDevices := by
      apply Machine.invariant (I := fun s => s.SameBlocked ∧ address ∈ s.prefs.blockedDevices) _ _ hu
      · intro s e s' h hs
        obtain ⟨hsame', hgrows⟩ := sameBlocked_step h.1 hs
        exact ⟨hsame', hgrows h.2⟩
      · exact ⟨hsame, hsame.blocks_iff.mp hblocks⟩
    have hconnects := hmeet.append_right (Machine.runFrom_append.mpr ⟨t, ht, hu⟩)
    exact not_trusted_of_keeps hlater.1 hlater.2 hconnects.1 hstep htrusted

/-! ## Runs -/

/-- One activity blocks a device whose pairing fails, trusts another one, and a second activity starts. -/
def pairings : List Event :=
  [.start ∅, .broadcast (.bondStateChanged (some "B".toList) BOND_BONDING BOND_NONE),
    .broadcast (.bondStateChanged (some "A".toList) BOND_BONDING BOND_BONDED),
    .broadcast (.aclConnected (some "A".toList)), .start {"A".toList}, .destroy 0,
    .broadcast (.aclConnected (some "C".toList))]

/-- A device that was trusted before, and one that was blocked. -/
def earlier : DeviceLists where
  trustedDevices := {"C".toList}
  blockedDevices := {"D".toList}

theorem staysApart_iff_pairings : StaysApart earlier pairings :=
  (staysApart_iff (by decide) (Option.eq_some_of_isSome (by decide))).mpr (by decide)

/-- A device whose pairing has failed connects, and is trusted then. -/
theorem blocked_device_trusted :
    ¬ StaysApart {} [.start ∅, .broadcast (.bondStateChanged (some "B".toList) BOND_BONDING BOND_NONE),
      .broadcast (.aclConnected (some "B".toList))] := by
  intro h
  have hapart := h.1 _ [] _ (List.append_nil _).symm rfl
  exact absurd (hapart ⟨{"B".toList}, {"B".toList}⟩ (by decide)) (by decide)

end

end AllInSafe.Bluetooth
