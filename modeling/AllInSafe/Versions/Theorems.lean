import AllInSafe.Versions.Model

/-!
# Agreement of the two processes
-/

namespace AllInSafe.Versions
open AllInSafe.Library

variable {α : Type} {s s' : Phone α} {p q : Process} {start : VpnProfile α}

namespace Phone

/-- Every message has been handled. -/
def Handled (s : Phone α) : Prop := s.posted = [] ∧ ∀ p, (s.memory p).inbox = [] ∧ (s.memory p).handling = none

/-- Whatever was saved under one version is one content. -/
def OneContent (s : Phone α) : Prop := ∀ a ∈ s.saved, ∀ b ∈ s.saved, a.mVersion = b.mVersion → a = b

/-- The UI process saves only once it listens, the other process only once the callback is registered and only the
object in its list; the object has the version in the storage, and the version does not overflow. -/
def UpToDate (s : Phone α) : Event α → Prop
  | .saveProfile p held _ _ =>
      (match p with
        | .ui => s.listening = true
        | .openvpn => s.registered = true ∧ held = none) ∧
      (∀ passed ∈ (s.memory p).object held, passed.mVersion = s.storage.mVersion) ∧ s.storage.mVersion < 2 ^ 31 - 2
  | _ => True

instance (s : Phone α) (e : Event α) : Decidable (s.UpToDate e) := by
  rcases e with ⟨_ | _, _, _, _⟩ | _ | _ | _ | _ | _ | _ | _ | _ <;> simp only [UpToDate] <;> infer_instance

/-! ## Invariant -/

/-- The versions of the messages for a process that are not handled. -/
def pending (m : Memory α) : List Int := (m.handling.map Get.version).toList ++ m.inbox

/-- A process holds the profile in the storage or an older one, and messages about no newer one. -/
structure Follows (storage : VpnProfile α) (m : Memory α) : Prop where
  le : m.profile.mVersion ≤ storage.mVersion
  same : m.profile.mVersion = storage.mVersion → m.profile = storage
  pending_le : ∀ version ∈ pending m, version ≤ storage.mVersion
  /-- The first try loads what is waited for. -/
  tries : ∀ g, m.handling = some g → g.tries ≠ 100 → g.version ≤ m.profile.mVersion

structure Inv (s : Phone α) : Prop where
  follows : ∀ p, Follows s.storage (s.memory p)
  told : (s.memory .openvpn).profile.mVersion < s.storage.mVersion → s.storage.mVersion ∈ pending (s.memory .openvpn)
  /-- The service posts what it has handled, also for the process that it comes from. -/
  told_ui : (s.memory .ui).profile.mVersion < s.storage.mVersion → s.storage.mVersion ∈ pending (s.memory .ui) ∨
    s.storage.mVersion ∈ s.posted ∨ s.storage.mVersion ∈ pending (s.memory .openvpn)
  posted_le : ∀ version ∈ s.posted, version ≤ s.storage.mVersion
  announced : s.posted ≠ [] ∨ pending (s.memory .openvpn) ≠ [] → s.registered = true
  created : s.serviceStatus = true → s.created = true
  bound : s.registered = true → s.serviceStatus = true
  listening : s.listening = true → s.registered = true
  saved_le : ∀ a ∈ s.saved, a.mVersion ≤ s.storage.mVersion
  one : s.OneContent
  lower : -2 ^ 31 ≤ s.storage.mVersion

section Memories

variable {f : Memory α → Memory α}

@[simp] theorem setMemory_self : (s.setMemory p f).memory p = f (s.memory p) := Function.update_self _ _ _

@[simp] theorem setMemory_of_ne (h : q ≠ p) : (s.setMemory p f).memory q = s.memory q := Function.update_of_ne h _ _

@[simp] theorem setMemory_storage : (s.setMemory p f).storage = s.storage := rfl

@[simp] theorem setMemory_posted : (s.setMemory p f).posted = s.posted := rfl

@[simp] theorem setMemory_registered : (s.setMemory p f).registered = s.registered := rfl

end Memories

/-! ### One process -/

section Process

variable {storage profile : VpnProfile α} {m : Memory α} {g : Get} {version : Int}

@[simp] theorem pending_send :
    pending { m with inbox := m.inbox ++ [version] } = pending m ++ [version] := by simp [pending]

theorem pending_handling (hg : m.handling = some g) : pending m = g.version :: m.inbox := by simp [pending, hg]

theorem Follows.send (h : Follows storage m) (hversion : version ≤ storage.mVersion) :
    Follows storage { m with inbox := m.inbox ++ [version] } := by
  refine ⟨h.le, h.same, fun v hv => ?_, h.tries⟩
  rw [pending_send] at hv
  rcases List.mem_append.mp hv with hv | hv
  · exact h.pending_le v hv
  · obtain rfl := List.mem_singleton.mp hv
    exact hversion

/-- A process that loads the storage follows it. -/
theorem Follows.load (h : Follows storage m) :
    Follows storage { m with profile := storage, kept := m.profile :: m.kept } := by
  refine ⟨le_refl _, fun _ => rfl, h.pending_le, fun g hg htries => ?_⟩
  exact (h.tries g hg htries).trans h.le

/-- A message that the process need not follow is handled. -/
theorem Follows.handled (h : Follows storage m) : Follows storage { m with handling := none } := by
  refine ⟨h.le, h.same, fun version hversion => h.pending_le version ?_, nofun⟩
  simp only [pending, Option.map_none, Option.toList_none, List.nil_append] at hversion
  exact List.mem_append_right _ hversion

theorem Follows.retry {tries : Nat} (h : Follows storage m) (hg : m.handling = some g)
    (hle : g.version ≤ m.profile.mVersion) : Follows storage { m with handling := some ⟨g.version, tries⟩ } := by
  have hpending : pending { m with handling := some ⟨g.version, tries⟩ } = pending m := by simp [pending, hg]
  refine ⟨h.le, h.same, ?_, fun g' hg' _ => ?_⟩
  · rw [hpending]
    exact h.pending_le
  · cases hg'
    exact hle

/-- A newer profile is stored, and the process has saved it or not. -/
theorem Follows.stored (h : Follows storage m) (hlt : storage.mVersion < profile.mVersion) : Follows profile m :=
  ⟨h.le.trans hlt.le, fun heq => absurd (heq ▸ h.le) (not_le.mpr hlt),
    fun version hversion => (h.pending_le version hversion).trans hlt.le, h.tries⟩

theorem Follows.save {held : Option Nat} (h : Follows storage m) (hlt : storage.mVersion < profile.mVersion) :
    Follows profile (m.setObject profile held) := by
  cases held with
  | none =>
      refine ⟨le_refl _, fun _ => rfl, (h.stored hlt).pending_le, fun g hg htries => ?_⟩
      exact ((h.tries g hg htries).trans h.le).trans hlt.le
  | some i => exact ⟨(h.stored hlt).le, (h.stored hlt).same, (h.stored hlt).pending_le, h.tries⟩

end Process

/-! ### Both processes -/

/-- A process takes a message or loads the list. -/
theorem Inv.setMemory (h : s.Inv) {f : Memory α → Memory α} (hf : Follows s.storage (f (s.memory p)))
    (hpending : pending (f (s.memory p)) = pending (s.memory p))
    (hbehind : (f (s.memory p)).profile.mVersion < s.storage.mVersion →
      (s.memory p).profile.mVersion < s.storage.mVersion) : (s.setMemory p f).Inv := by
  obtain ⟨hfollows, htold, htoldUi, hposted, hannounced, hcreated, hbound, hlistening, hsaved, hone, hlower⟩ := h
  refine ⟨fun q => ?_, ?_, ?_, hposted, ?_, hcreated, hbound, hlistening, hsaved, hone, hlower⟩
  · by_cases hq : q = p
    · subst hq; simpa using hf
    · simpa [hq] using hfollows q
  all_goals cases p
  · simpa using htold
  · simpa [hpending] using fun hlt => htold (hbehind hlt)
  · simpa [hpending] using fun hlt => htoldUi (hbehind hlt)
  · simpa [hpending] using htoldUi
  · simpa using hannounced
  · simpa [hpending] using hannounced

theorem Inv.receive (h : s.Inv) (hs : s.receive p = some s') : s'.Inv := by
  unfold Phone.receive at hs
  split at hs
  case h_1 version inbox hhandling hinbox =>
      cases hs
      have hp := h.follows p
      have hpending : pending { s.memory p with inbox := inbox, handling := some ⟨version, 100⟩ } =
          pending (s.memory p) := by
        simp [pending, hhandling, hinbox]
      refine h.setMemory ⟨hp.le, hp.same, ?_, fun g hg htries => ?_⟩ hpending id
      · rw [hpending]
        exact hp.pending_le
      · cases hg
        exact absurd rfl htries
  case h_2 => cases hs

theorem Inv.loadVPNList (h : s.Inv) : (s.loadVPNList p).Inv :=
  h.setMemory (h.follows p).load rfl fun hlt => absurd hlt (lt_irrefl _)

/-- The UI process has handled a message, which it does not pass on. -/
theorem Inv.handled_ui (h : s.Inv) {g : Get} (hg : (s.memory .ui).handling = some g)
    (hle : g.version ≤ (s.memory .ui).profile.mVersion) :
    ((s.setMemory .ui fun m => { m with handling := none }).notifyProfileVersionChanged .ui g.version false).Inv := by
  simp only [notifyProfileVersionChanged, Bool.false_and, Bool.and_false, Bool.false_eq_true, if_false]
  refine ⟨fun q => ?_, h.told, fun hlt => ?_, h.posted_le, h.announced, h.created, h.bound, h.listening, h.saved_le,
    h.one, h.lower⟩
  · cases q
    · simpa using (h.follows .ui).handled
    · simpa using h.follows .openvpn
  · simp only [setMemory_self, setMemory_storage] at hlt
    refine (h.told_ui hlt).imp_left fun hin => ?_
    rw [pending_handling hg, List.mem_cons] at hin
    simpa [pending] using hin.resolve_left fun heq => absurd (heq ▸ hle) (not_le.mpr hlt)

/-- The service has handled a message and posts it. -/
theorem Inv.handled_openvpn (h : s.Inv) {g : Get} (hg : (s.memory .openvpn).handling = some g)
    (hle : g.version ≤ (s.memory .openvpn).profile.mVersion) :
    ((s.setMemory .openvpn fun m => { m with handling := none }).notifyProfileVersionChanged .openvpn g.version
      false).Inv := by
  have hregistered := h.announced (.inr (by simp [pending_handling hg]))
  have hcreated := h.created (h.bound hregistered)
  have hstored : g.version ≤ s.storage.mVersion := hle.trans (h.follows .openvpn).le
  have hrest : ∀ {version : Int}, version ∈ pending (s.memory .openvpn) →
      version = g.version ∨ version ∈ pending { s.memory .openvpn with handling := none } := by
    intro version hin
    simpa [pending, hg] using hin
  have hposts : (s.setMemory .openvpn fun m => { m with handling := none }).created = true := hcreated
  simp only [notifyProfileVersionChanged]
  rw [if_pos hposts]
  refine ⟨fun q => ?_, fun hlt => ?_, fun hlt => ?_, fun version hversion => ?_, fun _ => hregistered, h.created,
    h.bound, h.listening, h.saved_le, h.one, h.lower⟩
  · cases q
    · simpa using h.follows .ui
    · simpa using (h.follows .openvpn).handled
  · simp only [setMemory_self, setMemory_storage] at hlt ⊢
    exact (hrest (h.told hlt)).resolve_left fun heq => absurd (heq ▸ hle) (not_le.mpr hlt)
  · simp only [setMemory_self, setMemory_storage, setMemory_posted, ne_eq, reduceCtorEq, not_false_eq_true,
      setMemory_of_ne, List.mem_append, List.mem_singleton] at hlt ⊢
    rcases h.told_ui hlt with hin | hin | hin
    · exact .inl hin
    · exact .inr (.inl (.inl hin))
    · rcases hrest hin with heq | hin
      · exact .inr (.inl (.inr heq))
      · exact .inr (.inr hin)
  · rcases List.mem_append.mp hversion with hversion | hversion
    · exact h.posted_le version hversion
    · obtain rfl := List.mem_singleton.mp hversion
      exact hstored

theorem Inv.tryGet (h : s.Inv) {g : Get} (hg : (s.memory p).handling = some g) : (s.tryGet p g).Inv := by
  have hp := h.follows p
  unfold Phone.tryGet
  split_ifs with hlt
  · cases htries : g.tries with
    | zero =>
        have hle := hp.tries g hg (by simp [htries])
        exact absurd hle (not_le.mpr hlt)
    | succ tries =>
        have hmemory : (s.loadVPNList p).memory p =
            { s.memory p with profile := s.storage, kept := (s.memory p).profile :: (s.memory p).kept } :=
          setMemory_self
        refine (h.loadVPNList (p := p)).setMemory ?_ (by simp [hmemory, pending, hg]) id
        rw [hmemory]
        apply hp.load.retry hg
        apply hp.pending_le
        simp [pending_handling hg]
  · have hle : g.version ≤ (s.memory p).profile.mVersion := not_lt.mp hlt
    cases p with
    | ui => exact h.handled_ui hg hle
    | openvpn => exact h.handled_openvpn hg hle

theorem Inv.handleMessage (h : s.Inv) (hs : s.handleMessage = some s') : s'.Inv := by
  unfold Phone.handleMessage at hs
  split at hs
  case h_1 => cases hs
  case h_2 version posted hposted =>
      have hregistered := h.announced (.inl (by simp [hposted]))
      have hle := h.posted_le version (by simp [hposted])
      simp only [Option.some.injEq] at hs
      rw [if_pos hregistered] at hs
      subst hs
      refine ⟨fun q => ?_, h.told, fun hlt => ?_, fun v hv => h.posted_le v (hposted ▸ List.mem_cons_of_mem _ hv),
        fun _ => hregistered, h.created, h.bound, h.listening, h.saved_le, h.one, h.lower⟩
      · cases q
        · simpa [Phone.setMemory] using (h.follows .ui).send hle
        · exact h.follows .openvpn
      · simp only [setMemory_self, setMemory_storage, setMemory_posted, pending_send, List.mem_append,
          List.mem_singleton] at hlt ⊢
        rcases h.told_ui hlt with hin | hin | hin
        · exact .inl (.inl hin)
        · rw [hposted, List.mem_cons] at hin
          rcases hin with heq | hin
          · exact .inl (.inr heq)
          · exact .inr (.inl hin)
        · exact .inr (.inr hin)

/-! ### Saving -/

/-- The counted version does not overflow. -/
theorem wrap_version {version : Int} {fails : Bool} (hlower : -2 ^ 31 ≤ version) (hupper : version < 2 ^ 31 - 2) :
    Config.wrap 32 (version + if fails then 2 else 1) = version + if fails then 2 else 1 := by
  unfold Config.wrap
  cases fails
  all_goals
    simp only [Bool.false_eq_true, ↓reduceIte]
    apply Int.bmod_eq_of_le <;> omega

theorem OneContent.save {profile : VpnProfile α} (h : s.Inv) (hlt : s.storage.mVersion < profile.mVersion) :
    ∀ a ∈ profile :: s.saved, ∀ b ∈ profile :: s.saved, a.mVersion = b.mVersion → a = b := by
  intro a ha b hb hab
  rcases List.mem_cons.mp ha with rfl | ha'
  · rcases List.mem_cons.mp hb with rfl | hb'
    · rfl
    · exact absurd hab ((h.saved_le b hb').trans_lt hlt).ne'
  · rcases List.mem_cons.mp hb with rfl | hb'
    · exact absurd hab ((h.saved_le a ha').trans_lt hlt).ne
    · exact h.one a ha' b hb' hab

theorem saved_le_save {profile : VpnProfile α} (h : s.Inv) (hlt : s.storage.mVersion < profile.mVersion) :
    ∀ a ∈ profile :: s.saved, a.mVersion ≤ profile.mVersion :=
  List.forall_mem_cons.mpr ⟨le_refl _, fun a ha => (h.saved_le a ha).trans hlt.le⟩

/-- The UI process tells the other one, which tells it back. -/
theorem Inv.save_ui (h : s.Inv) {profile : VpnProfile α} {held : Option Nat}
    (hlt : s.storage.mVersion < profile.mVersion) (hlistening : s.listening = true) :
    ({ s.setMemory .ui fun m => m.setObject profile held with
        storage := profile, saved := profile :: s.saved }.notifyProfileVersionChanged .ui profile.mVersion
          true).Inv := by
  have hregistered := h.listening hlistening
  have hsends : (s.listening && (true && s.serviceStatus)) = true := by simp [hlistening, h.bound hregistered]
  simp only [notifyProfileVersionChanged]
  rw [if_pos (by exact hsends)]
  refine ⟨fun q => ?_, fun _ => ?_, fun _ => .inr (.inr ?_), fun version hversion => ?_, fun _ => hregistered,
    h.created, h.bound, h.listening, saved_le_save h hlt, OneContent.save h hlt, h.lower.trans hlt.le⟩
  · cases q
    · exact (h.follows .ui).save hlt
    · exact ((h.follows .openvpn).stored hlt).send (le_refl _)
  · simp
  · simp
  · exact (h.posted_le version hversion).trans hlt.le

/-- The other process tells the UI process. -/
theorem Inv.save_openvpn (h : s.Inv) {profile : VpnProfile α} (hlt : s.storage.mVersion < profile.mVersion)
    (hregistered : s.registered = true) :
    ({ s.setMemory .openvpn fun m => m.setObject profile none with
        storage := profile, saved := profile :: s.saved }.notifyProfileVersionChanged .openvpn profile.mVersion
          true).Inv := by
  have hown : Follows profile ((s.memory .openvpn).setObject profile none) := (h.follows .openvpn).save hlt
  simp only [notifyProfileVersionChanged]
  rw [if_pos (by exact h.created (h.bound hregistered))]
  refine ⟨fun q => ?_, fun hbehind => ?_, fun _ => .inr (.inl ?_), fun version hversion => ?_, fun _ => hregistered,
    h.created, h.bound, h.listening, saved_le_save h hlt, OneContent.save h hlt, h.lower.trans hlt.le⟩
  · cases q
    · exact (h.follows .ui).stored hlt
    · exact hown
  · exact absurd hbehind (lt_irrefl _)
  · simp
  · rcases List.mem_append.mp hversion with hversion | hversion
    · exact (h.posted_le version hversion).trans hlt.le
    · exact (List.mem_singleton.mp hversion).le

theorem Inv.saveProfile (h : s.Inv) {held : Option Nat} {content : α} {fails : Bool}
    (hgood : s.UpToDate (.saveProfile p held content fails)) (hs : s.saveProfile p held content fails = some s') :
    s'.Inv := by
  obtain ⟨hprocess, hversion, hupper⟩ := hgood
  obtain ⟨passed, hpassed, rfl⟩ := Option.map_eq_some_iff.mp hs
  have hlt : s.storage.mVersion < Config.wrap 32 (passed.mVersion + if fails then 2 else 1) := by
    rw [hversion passed hpassed, wrap_version h.lower hupper]
    cases fails <;> simp
  cases p with
  | ui => exact h.save_ui hlt hprocess
  | openvpn =>
      obtain ⟨hregistered, rfl⟩ := hprocess
      exact h.save_openvpn hlt hregistered

/-! ### Runs -/

theorem Inv.step (h : s.Inv) {e : Event α} (hgood : s.UpToDate e) (hs : (phone start).step s e = some s') : s'.Inv := by
  obtain ⟨hfollows, htold, htoldUi, hposted, hannounced, hcreated, hbound, hlistening, hsaved, hone, hlower⟩ := id h
  cases e with
  | saveProfile p held content fails => exact h.saveProfile hgood hs
  | handleMessage => exact h.handleMessage hs
  | receive p => exact h.receive hs
  | tryGet p =>
      obtain ⟨g, hg, rfl⟩ := Option.map_eq_some_iff.mp hs
      exact h.tryGet hg
  | loadVPNList p => cases hs; exact h.loadVPNList
  | onCreate =>
      cases hs
      exact ⟨hfollows, htold, htoldUi, hposted, hannounced, fun _ => rfl, hbound, hlistening, hsaved, hone, hlower⟩
  | onServiceConnected =>
      obtain ⟨hguard, hs⟩ := Option.ite_none_right_eq_some.mp hs
      cases hs
      exact ⟨hfollows, htold, htoldUi, hposted, hannounced, fun _ => hguard, fun _ => rfl, hlistening, hsaved, hone,
        hlower⟩
  | registerStatusCallback =>
      obtain ⟨hguard, hs⟩ := Option.ite_none_right_eq_some.mp hs
      cases hs
      exact ⟨hfollows, htold, htoldUi, hposted, fun _ => rfl, hcreated, fun _ => hguard, fun _ => rfl, hsaved, hone,
        hlower⟩
  | addProfileStateListener =>
      obtain ⟨hguard, hs⟩ := Option.ite_none_right_eq_some.mp hs
      cases hs
      exact ⟨hfollows, htold, htoldUi, hposted, hannounced, hcreated, hbound, fun _ => hguard, hsaved, hone, hlower⟩

theorem inv_init (hstart : -2 ^ 31 ≤ start.mVersion) : (phone start).init.Inv := by
  refine ⟨fun p => ?_, ?_, ?_, ?_, ?_, ?_, ?_, ?_, ?_, ?_, hstart⟩
  · exact ⟨le_refl _, fun _ => rfl, by simp [phone, pending], by simp [phone]⟩
  all_goals simp [phone, pending, OneContent]

/-- A process without messages holds the profile in the storage. -/
theorem Inv.agrees (h : s.Inv) (hhandled : s.Handled) : (s.memory p).profile = s.storage := by
  obtain ⟨hposted, hmemory⟩ := hhandled
  have hnone : ∀ p, pending (s.memory p) = [] := by
    intro p
    simp [pending, (hmemory p).1, (hmemory p).2]
  apply (h.follows p).same
  apply le_antisymm (h.follows p).le
  by_contra hlt
  rw [not_le] at hlt
  cases p with
  | ui => simpa [hnone, hposted] using h.told_ui hlt
  | openvpn => simpa [hnone] using h.told hlt

end Phone

/-- In a run in which a process saves only once its messages can be delivered, and an object of the version in the
storage, both processes hold what was saved last once every message is handled, and no version was saved with two
contents. -/
theorem versions_agree {es : List (Event α)} (hstart : -2 ^ 31 ≤ start.mVersion)
    (hgood : (phone start).StepsMeet Phone.UpToDate (phone start).init es)
    (hrun : (phone start).runFrom (phone start).init es = some s) :
    (s.Handled → ∀ p, (s.memory p).profile = s.storage) ∧ s.OneContent := by
  have hinv : s.Inv :=
    hgood.invariant (fun _ _ _ h hupto hs => h.step hupto hs) (Phone.inv_init hstart) hrun
  exact ⟨fun hhandled _ => hinv.agrees hhandled, hinv.one⟩

def firstVersion : VpnProfile Nat := ⟨1, 0⟩

/-- The UI process binds to the service. -/
def binding : List (Event Nat) := [.onCreate, .onServiceConnected, .registerStatusCallback, .addProfileStateListener]

/-- A save of an object that an activity has kept over a reload. The other process is told of it, tells the UI process
and then saves itself. -/
def savedInTurn : List (Event Nat) :=
  binding ++ [.loadVPNList .ui, .saveProfile .ui (some 0) 10 false, .receive .openvpn, .tryGet .openvpn,
    .tryGet .openvpn, .handleMessage, .receive .ui, .tryGet .ui, .tryGet .ui, .saveProfile .openvpn none 20 false, .handleMessage,
    .receive .ui, .tryGet .ui, .tryGet .ui]

theorem versions_agree_savedInTurn :
    ∃ s, (phone firstVersion).runFrom (phone firstVersion).init savedInTurn = some s ∧
      s.storage = ⟨3, 20⟩ ∧ (s.memory .ui).profile = s.storage := by
  have hgood : (phone firstVersion).StepsMeet Phone.UpToDate (phone firstVersion).init savedInTurn := by decide
  obtain ⟨hagree, _⟩ := versions_agree (by decide) hgood rfl
  refine ⟨_, rfl, rfl, hagree ⟨rfl, ?_⟩ .ui⟩
  intro p
  cases p <;> exact ⟨rfl, rfl⟩

/-- Both processes save before they have heard of each other: one version with two contents, and both keep their own.
The same comes of one process that saves an object from before a reload. A save before the processes are bound reaches
nobody. -/
theorem versions_disagree :
    (∃ s, (phone firstVersion).runFrom (phone firstVersion).init
        (binding ++ [.saveProfile .ui none 10 false, .saveProfile .openvpn none 20 false, .receive .openvpn,
          .tryGet .openvpn, .handleMessage, .handleMessage, .receive .ui, .tryGet .ui, .receive .ui, .tryGet .ui]) =
        some s ∧
      s.Handled ∧ (s.memory .ui).profile = ⟨2, 10⟩ ∧ (s.memory .openvpn).profile = ⟨2, 20⟩ ∧ s.storage = ⟨2, 20⟩ ∧
      ¬ s.OneContent) ∧
    (∃ s, (phone firstVersion).runFrom (phone firstVersion).init
        (binding ++ [.loadVPNList .ui, .saveProfile .ui none 10 false, .receive .openvpn, .tryGet .openvpn,
          .tryGet .openvpn, .handleMessage, .receive .ui, .tryGet .ui, .saveProfile .ui (some 0) 20 false,
          .receive .openvpn, .tryGet .openvpn, .handleMessage, .receive .ui, .tryGet .ui]) = some s ∧
      s.Handled ∧ (s.memory .openvpn).profile = ⟨2, 10⟩ ∧ s.storage = ⟨2, 20⟩ ∧ ¬ s.OneContent) ∧
    ∃ s, (phone firstVersion).runFrom (phone firstVersion).init
        ([.saveProfile .ui none 10 false] ++ binding) = some s ∧
      s.Handled ∧ (s.memory .openvpn).profile = ⟨1, 0⟩ ∧ s.storage = ⟨2, 10⟩ := by
  have htwice : ∀ {s : Phone Nat}, s.saved = [⟨2, 20⟩, ⟨2, 10⟩] → ¬ s.OneContent := by
    intro s hsaved hone
    have hsame := hone ⟨2, 10⟩ (by simp [hsaved]) ⟨2, 20⟩ (by simp [hsaved]) rfl
    cases hsame
  refine ⟨⟨_, rfl, ⟨rfl, ?_⟩, rfl, rfl, rfl, htwice rfl⟩, ⟨_, rfl, ⟨rfl, ?_⟩, rfl, rfl, htwice rfl⟩,
    ⟨_, rfl, ⟨rfl, ?_⟩, rfl, rfl⟩⟩
  all_goals
    intro p
    cases p <;> exact ⟨rfl, rfl⟩

end AllInSafe.Versions
