import AllInSafe.AppLock.Model

/-!
# The lock is not silently off
-/

namespace AllInSafe.AppLock
open AllInSafe.Library

/-! ## Preferences -/

namespace AppPref

@[simp] theorem getBoolean_putBoolean {key : Str} {value defValue : Bool} {p : AppPref} :
    (p.putBoolean key value).getBoolean key defValue = value := by
  simp [getBoolean, putBoolean]

theorem getBoolean_putBoolean_of_ne {key key' : Str} {value defValue : Bool} {p : AppPref} (h : key' ≠ key) :
    (p.putBoolean key value).getBoolean key' defValue = p.getBoolean key' defValue := by
  have hkeep : ∀ e : Str × Bool, e.1 ≠ key ∧ e.1 = key' ↔ e.1 = key' := by
    intro e
    constructor
    · exact And.right
    · intro he; exact ⟨he ▸ h, he⟩
  simp [getBoolean, putBoolean, h.symm, List.find?_filter, hkeep]

@[simp] theorem getBoolean_putLockedApps {key : Str} {values : List Str} {defValue : Bool} {p : AppPref} :
    (p.putLockedApps values).getBoolean key defValue = p.getBoolean key defValue := rfl

end AppPref

namespace Phone

/-- What the last toggle has switched to, as the toggle itself has stored it. -/
def toggledOn (s : Phone) : Bool := s.appPref.getBoolean "applock_onoff" false

/-! ## Runs -/

/-- The service would start the lock screen. -/
structure Armed (s : Phone) : Prop where
  onoff : s.connected = true → s.toggledOn = true → s.companion.onoff = true
  list : s.connected = true → ∀ p ∈ s.loadLockedApps, p ∈ s.companion.lockedPackageList
  running : s.companion.isLockActivityRunning = true → s.lockActivityOnScreen = true

/-- The step does not lose the lock: the service does not connect while the lock is on, and the last lock activity
leaves the screen only by a verification. -/
def LockKept (s : Phone) : Event → Prop
  | .serviceConnected => s.toggledOn = false
  | .window _ now => s.lastUnlockTime = none → 10000 ≤ now
  | .recordLoaded document => document.bind forward = some none → s.task.length ≠ 1
  | .pinEntered _ inputPin document => document.bind (verifyPin inputPin) = some ⟨true, false⟩ → s.task.length ≠ 1
  | .back => s.task.head? = some .pinpattern_forwarding → s.task.length ≠ 1
  | .userLeaves => s.task.head? ≠ some .pinpattern_forwarding
  | .covered => False
  | _ => True

instance (s : Phone) (e : Event) : Decidable (s.LockKept e) := by
  cases e <;> simp only [LockKept] <;> infer_instance

/-- A package of the saved list comes to the foreground of a phone whose lock was switched on, when the last unlock
is ten seconds old. -/
structure Due (s : Phone) (packageName : Str) (now : Nat) : Prop where
  connected : s.connected = true
  on : s.toggledOn = true
  listed : packageName ∈ s.loadLockedApps
  cooled : ∀ t ∈ s.lastUnlockTime, t + 10000 ≤ now
  unlocked : s.lockActivityOnScreen = false

theorem Armed.finish {s : Phone} (h : s.Armed) (hlength : s.task.length ≠ 1) : s.finish.Armed := by
  refine ⟨h.onoff, h.list, ?_⟩
  intro hrunning
  have hscreen := h.running hrunning
  cases htask : s.task with
  | nil => simp [lockActivityOnScreen, htask] at hscreen
  | cons a rest =>
      cases rest with
      | nil => simp [htask] at hlength
      | cons b rest => simpa [lockActivityOnScreen, Phone.finish, htask] using hscreen

@[simp] theorem lockActivityOnScreen_startActivity {s : Phone} {a : LockActivity} :
    (s.startActivity a).lockActivityOnScreen = true := by
  simp [lockActivityOnScreen, Phone.startActivity]

theorem Armed.unlock {s : Phone} (h : s.Armed) (now : Nat) : (s.unlock now).Armed :=
  ⟨h.onoff, h.list, fun hrunning => by simp [Phone.unlock] at hrunning⟩

theorem Armed.onAccessibilityEvent {s : Phone} (h : s.Armed) (packageName : Option Str) (now : Nat) :
    (s.onAccessibilityEvent packageName now).Armed := by
  unfold Phone.onAccessibilityEvent
  split_ifs
  · exact h
  · refine ⟨h.onoff, h.list, ?_⟩
    intro _
    exact lockActivityOnScreen_startActivity
  all_goals exact h

theorem Armed.startApplock {s : Phone} (h : s.Armed) : s.startApplock.Armed := by
  refine ⟨?_, h.list, h.running⟩
  intro _ hon
  simpa [toggledOn, Phone.startApplock] using hon

theorem Armed.checkApp {s : Phone} (h : s.Armed) (position : Nat) (isChecked : Bool) (apps : List AppInfo) :
    (s.checkApp position isChecked apps).Armed := by
  refine ⟨h.onoff, ?_, h.running⟩
  intro _ p hp
  simpa [loadLockedApps, Phone.checkApp, AppPref.putLockedApps] using hp

theorem Armed.recordLoaded {s : Phone} (h : s.Armed) {document : Option Document}
    (hkept : s.LockKept (.recordLoaded document)) : (s.recordLoaded document).Armed := by
  simp only [LockKept] at hkept
  unfold Phone.recordLoaded
  split
  case h_1 => exact h
  case h_2 hnone => exact h.finish (hkept hnone)
  case h_3 a _ => exact ⟨h.onoff, h.list, fun _ => lockActivityOnScreen_startActivity⟩

theorem Armed.pinVerified {s : Phone} (h : s.Armed) {now : Nat} {inputPin : Str} {document : Option Document}
    (hkept : s.LockKept (.pinEntered now inputPin document)) : (s.pinVerified now inputPin document).Armed := by
  simp only [LockKept] at hkept
  unfold Phone.pinVerified
  split
  case h_1 => exact h
  case h_2 r hr =>
      obtain ⟨finished, verified⟩ := r
      cases verified with
      | true => exact h.unlock now
      | false =>
          cases finished with
          | true => exact h.finish (hkept hr)
          | false => exact h

theorem Armed.handle {s s' : Phone} {e : Event} (h : s.Armed) (hkept : s.LockKept e) (hs : s.handle e = some s') :
    s'.Armed := by
  cases e with
  | processStarted =>
      cases hs
      exact ⟨by simp, by simp, by simp⟩
  | serviceConnected =>
      cases hs
      refine ⟨?_, fun _ _ hp => hp, h.running⟩
      intro _ hon
      have hoff : s.toggledOn = true := hon
      simp [LockKept, hoff] at hkept
  | toggle => cases hs; exact h.startApplock
  | editLockApp installed => cases hs; exact ⟨h.onoff, h.list, h.running⟩
  | checkApp position isChecked =>
      obtain ⟨apps, _, rfl⟩ := Option.map_eq_some_iff.mp hs
      exact h.checkApp position isChecked apps
  | window packageName now =>
      simp only [Phone.handle, Option.ite_none_right_eq_some, Option.some.injEq] at hs
      obtain ⟨_, rfl⟩ := hs
      exact h.onAccessibilityEvent packageName now
  | recordLoaded document =>
      simp only [Phone.handle, Option.ite_none_right_eq_some, Option.some.injEq] at hs
      obtain ⟨_, rfl⟩ := hs
      exact h.recordLoaded hkept
  | pinEntered now inputPin document =>
      simp only [Phone.handle, Option.ite_none_right_eq_some, Option.some.injEq] at hs
      obtain ⟨_, rfl⟩ := hs
      exact h.pinVerified hkept
  | patternEntered now inputPattern document =>
      simp only [Phone.handle, Option.ite_none_right_eq_some, Option.some.injEq] at hs
      obtain ⟨_, rfl⟩ := hs
      unfold patternVerified
      split_ifs
      · exact h.unlock now
      · exact h
  | back =>
      simp only [Phone.handle, Option.ite_none_right_eq_some] at hs
      obtain ⟨_, hs⟩ := hs
      split_ifs at hs with hhead
      · cases hs; exact h.finish (hkept hhead)
      · cases hs; exact h
  | userLeaves =>
      simp only [Phone.handle, Option.ite_none_right_eq_some] at hs
      obtain ⟨_, hs⟩ := hs
      rw [if_neg hkept] at hs
      cases hs
      exact ⟨h.onoff, h.list, fun _ => by simp [lockActivityOnScreen, Phone.onUserLeaveHint]⟩
  | covered => exact hkept.elim
  | returned =>
      cases hs
      refine ⟨h.onoff, h.list, ?_⟩
      intro hrunning
      have hscreen := h.running hrunning
      simp only [lockActivityOnScreen, Bool.and_eq_true] at hscreen
      simpa [lockActivityOnScreen] using hscreen.2

/-- The toggle writes another key than the service reads. -/
theorem loadOnoff_handle {s s' : Phone} {e : Event} (hs : s.handle e = some s') : s'.loadOnoff = s.loadOnoff := by
  cases e with
  | toggle => cases hs; exact AppPref.getBoolean_putBoolean_of_ne (by decide)
  | checkApp position isChecked =>
      obtain ⟨apps, _, rfl⟩ := Option.map_eq_some_iff.mp hs
      exact AppPref.getBoolean_putLockedApps
  | window packageName now =>
      simp only [Phone.handle, Option.ite_none_right_eq_some, Option.some.injEq] at hs
      obtain ⟨_, rfl⟩ := hs
      unfold Phone.onAccessibilityEvent
      split_ifs <;> rfl
  | recordLoaded document =>
      simp only [Phone.handle, Option.ite_none_right_eq_some, Option.some.injEq] at hs
      obtain ⟨_, rfl⟩ := hs
      unfold Phone.recordLoaded
      split <;> rfl
  | pinEntered now inputPin document =>
      simp only [Phone.handle, Option.ite_none_right_eq_some, Option.some.injEq] at hs
      obtain ⟨_, rfl⟩ := hs
      unfold Phone.pinVerified
      split
      case h_1 => rfl
      case h_2 => split_ifs <;> rfl
  | patternEntered now inputPattern document =>
      simp only [Phone.handle, Option.ite_none_right_eq_some, Option.some.injEq] at hs
      obtain ⟨_, rfl⟩ := hs
      unfold patternVerified
      split_ifs <;> rfl
  | back =>
      simp only [Phone.handle, Option.ite_none_right_eq_some] at hs
      obtain ⟨_, hs⟩ := hs
      split_ifs at hs <;> cases hs <;> rfl
  | userLeaves =>
      simp only [Phone.handle, Option.ite_none_right_eq_some] at hs
      obtain ⟨_, hs⟩ := hs
      split_ifs at hs <;> cases hs <;> rfl
  | covered =>
      simp only [Phone.handle, Option.ite_none_right_eq_some, Option.some.injEq] at hs
      obtain ⟨_, rfl⟩ := hs
      rfl
  | processStarted => cases hs; rfl
  | serviceConnected => cases hs; rfl
  | editLockApp installed => cases hs; rfl
  | returned => cases hs; rfl

theorem armed_init : phone.init.Armed := ⟨by simp [phone], by simp [phone], by simp [phone]⟩

/-- An armed phone starts the lock screen when it is due. -/
theorem Armed.starts {s : Phone} (h : s.Armed) {packageName : Str} {now : Nat} (hdue : s.Due packageName now)
    (hclock : s.lastUnlockTime = none → 10000 ≤ now) :
    (s.onAccessibilityEvent (some packageName) now).task = .pinpattern_forwarding :: s.task ∧
      (s.onAccessibilityEvent (some packageName) now).lockActivityOnScreen = true := by
  have hcooled : ¬ (now : Int) - s.lastUnlockTime.getD 0 < 10000 := by
    cases htime : s.lastUnlockTime with
    | none => have := hclock htime; simp; omega
    | some t => have := hdue.cooled t htime; simp; omega
  have honoff := h.onoff hdue.connected hdue.on
  have hlisted : some packageName ∈ s.companion.lockedPackageList.map some :=
    List.mem_map_of_mem (h.list hdue.connected packageName hdue.listed)
  have hrunning : s.companion.isLockActivityRunning = false := by
    cases hr : s.companion.isLockActivityRunning with
    | false => rfl
    | true =>
        have hunlocked := hdue.unlocked
        simp [h.running hr] at hunlocked
  unfold Phone.onAccessibilityEvent
  rw [if_neg hcooled, if_pos honoff, if_pos hlisted, hrunning]
  simp [Phone.startActivity, lockActivityOnScreen]

end Phone

/-- In a run that does not lose the lock, the service starts the lock screen whenever it is due. -/
theorem lock_starts {es : List Event} {packageName : Str} {now : Nat} {s : Phone}
    (hgood : phone.StepsMeet Phone.LockKept phone.init (es ++ [.window (some packageName) now]))
    (hrun : phone.runFrom phone.init es = some s) (hdue : s.Due packageName now) :
    ∃ s', phone.step s (.window (some packageName) now) = some s' ∧
      s'.task = .pinpattern_forwarding :: s.task ∧ s'.lockActivityOnScreen = true := by
  have harmed : s.Armed := by
    have hes : phone.StepsMeet Phone.LockKept phone.init es := hgood.append_left
    exact hes.invariant (fun _ _ _ h hkept hs => h.handle hkept hs) Phone.armed_init hrun
  have hclock : s.LockKept (.window (some packageName) now) := (hgood.append_right hrun).1
  have hstep : phone.step s (.window (some packageName) now) = some (s.onAccessibilityEvent (some packageName) now) := by
    simp [phone, Phone.handle, hdue.connected]
  exact ⟨_, hstep, harmed.starts hdue hclock⟩

def bank : Str := "com.example.bank"

def pinDocument : Document where
  pin := .array [.long 1, .string "1234".toList]
  pattern := .array (List.replicate 17 (.long 0))

/-- The bank is locked, comes to the foreground and is unlocked with the PIN. -/
def unlockedRun : List Event :=
  [.serviceConnected, .toggle, .editLockApp [bank], .checkApp 0 true, .window (some bank) 1000000,
    .recordLoaded (some pinDocument), .pinEntered 1005000 "1234" (some pinDocument)]

theorem lock_starts_unlockedRun :
    ∃ s s', phone.runFrom phone.init unlockedRun = some s ∧ s.lastUnlockTime = some 1005000 ∧
      phone.step s (.window (some bank) 1020000) = some s' ∧ s'.lockActivityOnScreen = true := by
  have hgood : phone.StepsMeet Phone.LockKept phone.init (unlockedRun ++ [.window (some bank) 1020000]) := by decide
  obtain ⟨s', hstep, _, hscreen⟩ := lock_starts hgood rfl ⟨rfl, by decide, by decide, by decide, rfl⟩
  exact ⟨_, s', rfl, rfl, hstep, hscreen⟩

/-- The service connects again while the lock is on; the record of a user without a PIN and a pattern finishes the
lock screen. -/
theorem lock_silently_off :
    (∃ s, phone.runFrom phone.init [.toggle, .editLockApp [bank], .checkApp 0 true, .serviceConnected] = some s ∧
      s.Due bank 1000000 ∧ phone.step s (.window (some bank) 1000000) = some s) ∧
    (∃ s, phone.runFrom phone.init
        [.serviceConnected, .toggle, .editLockApp [bank], .checkApp 0 true, .window (some bank) 1000000,
          .recordLoaded (some ⟨.array [.long 0], .array [.long 0]⟩)] = some s ∧
      s.Due bank 2000000 ∧ phone.step s (.window (some bank) 2000000) = some s) := by
  refine ⟨⟨_, rfl, ⟨rfl, by decide, by decide, by decide, rfl⟩, by decide⟩,
    ⟨_, rfl, ⟨rfl, by decide, by decide, by decide, rfl⟩, by decide⟩⟩

/-- Nothing writes the preference that a connecting service reads: in every run it leaves the lock off. -/
theorem onoff_of_onServiceConnected {es : List Event} {s : Phone} (hrun : phone.runFrom phone.init es = some s) :
    s.onServiceConnected.companion.onoff = false := by
  have hstep : ∀ s e s', s.loadOnoff = false → phone.step s e = some s' → s'.loadOnoff = false := by
    intro s e s' h hs
    rw [Phone.loadOnoff_handle hs, h]
  exact Machine.invariant hstep rfl hrun

end AllInSafe.AppLock
