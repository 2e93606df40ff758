import AllInSafe.RemoteControl.ExternalAppDatabase

/-!
# The remote control authorises exactly the allowed callers
-/

namespace AllInSafe.RemoteControl
open AllInSafe.Library

namespace ExternalAppDatabase

variable {installed : Str → Option Nat} {callingUid n : Nat} {db db' : ExternalAppDatabase} {apps : List Str}
  {permission : Permission}

/-- An app of the caller is granted where one is allowed, and the caller is refused otherwise. -/
def Decides (installed : Str → Option Nat) (callingUid : Nat) (apps : List Str) (permission : Permission) : Prop :=
  if ∃ a ∈ apps, installed a = some callingUid then
    ∃ a ∈ apps, installed a = some callingUid ∧ permission = .granted a
  else permission = .securityException

/-- Only packages that are not installed leave the set, and none of a managed one. -/
structure Keeps (installed : Str → Option Nat) (db db' : ExternalAppDatabase) : Prop where
  subset : ∀ a ∈ db'.allowed_apps.elements, a ∈ db.allowed_apps.elements
  removed : ∀ a ∈ db.allowed_apps.elements, a ∉ db'.allowed_apps.elements → installed a = none
  managed : db.allowed_apps_managed = true → db'.allowed_apps = db.allowed_apps
  flag : db'.allowed_apps_managed = db.allowed_apps_managed

/-- A package that is missing in front of another one comes after an app of the caller. -/
def MissingLast (installed : Str → Option Nat) (callingUid : Nat) (apps : List Str) : Prop :=
  ∀ before missing next after, apps = before ++ missing :: next :: after → installed missing = none →
    ∃ a ∈ before, installed a = some callingUid

theorem missingLast_nil : MissingLast installed callingUid [] := by
  intro before missing next after h
  simp at h

/-! ## The loop -/

theorem missingLast_cons_of_caller {app : Str} (h : installed app = some callingUid) :
    MissingLast installed callingUid (app :: apps) := by
  intro before missing next after hsplit hmissing
  cases before with
  | nil =>
      obtain ⟨rfl, -⟩ := List.cons.inj hsplit
      rw [h] at hmissing
      cases hmissing
  | cons first before =>
      obtain ⟨rfl, -⟩ := List.cons.inj hsplit
      exact ⟨app, by simp, h⟩

theorem missingLast_cons_of_other {app : Str} (h : installed app ≠ some callingUid) :
    MissingLast installed callingUid (app :: apps) ↔
      (installed app = none → apps = []) ∧ MissingLast installed callingUid apps := by
  constructor
  · intro hlast
    constructor
    · intro hmissing
      cases apps with
      | nil => rfl
      | cons next after =>
          obtain ⟨a, ha, -⟩ := hlast [] app next after rfl hmissing
          cases ha
    · intro before missing next after hsplit hmissing
      obtain ⟨a, ha, hcaller⟩ := hlast (app :: before) missing next after (by rw [hsplit]; rfl) hmissing
      rcases List.mem_cons.mp ha with rfl | ha
      · exact absurd hcaller h
      · exact ⟨a, ha, hcaller⟩
  · rintro ⟨hhead, hlast⟩ before missing next after hsplit hmissing
    cases before with
    | nil =>
        obtain ⟨rfl, htail⟩ := List.cons.inj hsplit
        rw [hhead hmissing] at htail
        cases htail
    | cons first before =>
        obtain ⟨rfl, htail⟩ := List.cons.inj hsplit
        obtain ⟨a, ha, hcaller⟩ := hlast before missing next after htail hmissing
        exact ⟨a, List.mem_cons_of_mem app ha, hcaller⟩

theorem not_decides_concurrentModificationException :
    ¬ Decides installed callingUid apps .concurrentModificationException := by
  unfold Decides
  split_ifs <;> simp

theorem decides_cons_of_other {app : Str} (h : installed app ≠ some callingUid) :
    Decides installed callingUid (app :: apps) permission ↔ Decides installed callingUid apps permission := by
  simp [Decides, h]

theorem removeApp_modCount {app : Str} (h : app ∈ db.allowed_apps.elements) :
    (db.removeApp app).allowed_apps.modCount = db.allowed_apps.modCount + 1 := by
  simp [removeApp, saveExtAppList, StringSet.remove, h]

/-- After a removal the iterator throws, unless nothing is left. -/
theorem checkLoop_of_modified (h : db.allowed_apps.modCount ≠ n) :
    (checkLoop installed callingUid n apps db).1 =
      if apps = [] then .securityException else .concurrentModificationException := by
  cases apps with
  | nil => rfl
  | cons app apps => simp [checkLoop, h]

theorem decides_checkLoop (hmodCount : db.allowed_apps.modCount = n) (happs : ∀ a ∈ apps, a ∈ db.allowed_apps.elements) :
    Decides installed callingUid apps (checkLoop installed callingUid n apps db).1 ↔
      db.allowed_apps_managed = true ∨ MissingLast installed callingUid apps := by
  induction apps with
  | nil => simp [Decides, checkLoop, missingLast_nil]
  | cons app apps ih =>
      rw [List.forall_mem_cons] at happs
      by_cases hcaller : installed app = some callingUid
      · simp only [missingLast_cons_of_caller hcaller, or_true, iff_true]
        simp [Decides, checkLoop, hmodCount, hcaller]
      rw [decides_cons_of_other hcaller, missingLast_cons_of_other hcaller]
      cases hinstalled : installed app with
      | some uid =>
          have hother : callingUid ≠ uid := fun heq => hcaller (heq ▸ hinstalled)
          simpa [checkLoop, hmodCount, hinstalled, hother] using ih happs.2
      | none =>
          by_cases hmanaged : db.allowed_apps_managed = true
          · simpa [checkLoop, hmodCount, hinstalled, hmanaged] using ih happs.2
          · have hmodified : (db.removeApp app).allowed_apps.modCount ≠ n := by
              rw [removeApp_modCount happs.1, hmodCount]
              exact Nat.succ_ne_self n
            have hnext : (checkLoop installed callingUid n apps (db.removeApp app)).1 =
                if apps = [] then .securityException else .concurrentModificationException :=
              checkLoop_of_modified hmodified
            simp only [checkLoop, hmodCount, ne_eq, not_true_eq_false, if_false, hinstalled, hmanaged,
              Bool.false_eq_true, hnext, forall_true_left, false_or]
            cases apps with
            | nil => simp [Decides, missingLast_nil]
            | cons next apps => simp [not_decides_concurrentModificationException]

/-! ## The stored set -/

theorem Keeps.refl : Keeps installed db db := ⟨fun _ h => h, fun _ h hnot => absurd h hnot, fun _ => rfl, rfl⟩

theorem Keeps.trans {db₁ db₂ db₃ : ExternalAppDatabase} (h : Keeps installed db₁ db₂) (h' : Keeps installed db₂ db₃) :
    Keeps installed db₁ db₃ := by
  refine ⟨fun a ha => h.subset a (h'.subset a ha), ?_, ?_, h'.flag.trans h.flag⟩
  · intro a ha hnot
    by_cases hmiddle : a ∈ db₂.allowed_apps.elements
    · exact h'.removed a hmiddle hnot
    · exact h.removed a ha hmiddle
  · intro hmanaged
    exact (h'.managed (h.flag.trans hmanaged)).trans (h.managed hmanaged)

theorem keeps_removeApp {app : Str} (h : installed app = none) (hmanaged : ¬ db.allowed_apps_managed = true) :
    Keeps installed db (db.removeApp app) := by
  refine ⟨?_, ?_, fun h => absurd h hmanaged, rfl⟩
  · intro a ha
    simp only [removeApp, saveExtAppList, StringSet.remove] at ha
    split_ifs at ha
    · exact List.mem_of_mem_erase ha
    · exact ha
  · intro a ha hnot
    by_cases heq : a = app
    · rw [heq]; exact h
    · apply absurd _ hnot
      simp only [removeApp, saveExtAppList, StringSet.remove]
      split_ifs
      · exact (List.mem_erase_of_ne heq).mpr ha
      · exact ha

theorem keeps_checkLoop : Keeps installed db (checkLoop installed callingUid n apps db).2 := by
  induction apps generalizing db with
  | nil => exact Keeps.refl
  | cons app apps ih =>
      cases hinstalled : installed app with
      | some uid =>
          simp only [checkLoop, hinstalled]
          split_ifs
          · exact Keeps.refl
          · exact Keeps.refl
          · exact ih
      | none =>
          simp only [checkLoop, hinstalled]
          split_ifs with _ hmanaged
          · exact Keeps.refl
          · exact ih
          · exact (keeps_removeApp hinstalled hmanaged).trans ih

/-- For every set of allowed apps in every order of its iterator, all installed packages and every caller: the check
grants an app of the caller or refuses with a `SecurityException`, and takes only missing packages out of the set,
exactly when the set is managed or no package is missing in front of another one, unless an app of the caller comes
first. -/
theorem checkOpenVPNPermission_iff (installed : Str → Option Nat) (callingUid : Nat) (db : ExternalAppDatabase) :
    Decides installed callingUid db.allowed_apps.elements (db.checkOpenVPNPermission installed callingUid).1 ∧
        Keeps installed db (db.checkOpenVPNPermission installed callingUid).2 ↔
      db.allowed_apps_managed = true ∨ MissingLast installed callingUid db.allowed_apps.elements := by
  unfold checkOpenVPNPermission
  rw [decides_checkLoop rfl fun _ h => h]
  exact and_iff_left keeps_checkLoop

/-- An app that is allowed crashes the call after another one was uninstalled. -/
theorem uninstalled_app_throws :
    let db : ExternalAppDatabase := { allowed_apps := ⟨["gone".toList, "client".toList], by decide, 0⟩ }
    let installed : Str → Option Nat := fun a => if a = "client".toList then some 10080 else none
    (db.checkOpenVPNPermission installed 10080).1 = .concurrentModificationException ∧
      ¬ Decides installed 10080 db.allowed_apps.elements (db.checkOpenVPNPermission installed 10080).1 := by
  intro db installed
  have hthrown : (db.checkOpenVPNPermission installed 10080).1 = .concurrentModificationException := by decide
  refine ⟨hthrown, ?_⟩
  rw [hthrown]
  exact not_decides_concurrentModificationException

end ExternalAppDatabase

end AllInSafe.RemoteControl
