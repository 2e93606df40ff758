import AllInSafe.Pause.Lemmas.Basic
import AllInSafe.Pause.Receiver

/-!
# Which calls of the receiver are truthful

The reason of a pause is truthful when any of the three causes is off: the last line of `getPauseReason` is the
only one that may not be.
-/

namespace AllInSafe.Pause
open AllInSafe.Library

variable {r : DeviceStateReceiver}

/-! ## Reasons -/

/-- Some cause is off. -/
def SomeOff (r : DeviceStateReceiver) : Prop :=
  r.userpause = .disconnected ∨ r.screen = .disconnected ∨ r.network = .disconnected

theorem off_getPauseReason : r.getPauseReason.Off r ↔ SomeOff r := by
  unfold DeviceStateReceiver.getPauseReason SomeOff
  split_ifs <;> simp_all [PauseReason.Off]

theorem SomeOff.shouldBeConnected (h : SomeOff r) : r.shouldBeConnected = false := by
  rcases h with h | h | h <;> simp [DeviceStateReceiver.shouldBeConnected, h]

theorem truthful_pause : Made.Truthful ⟨.pause r.getPauseReason, r⟩ ↔ SomeOff r := by
  simp only [Made.Truthful, off_getPauseReason]
  exact and_iff_left_of_imp SomeOff.shouldBeConnected

@[simp] theorem truthful_resume : Made.Truthful ⟨.resume, r⟩ := trivial

@[simp] theorem truthful_networkChange {same : Bool} : Made.Truthful ⟨.networkChange same, r⟩ := trivial

/-! ## Handlers -/

/-- The call with which a handler ends, if any, is truthful. -/
def TruthfulCall (result : DeviceStateReceiver × Option Call) : Prop := ∀ c ∈ result.2, Made.Truthful ⟨c, result.1⟩

@[simp] theorem truthfulCall_none : TruthfulCall (r, none) := by simp [TruthfulCall]

@[simp] theorem truthfulCall_some {c : Call} : TruthfulCall (r, some c) ↔ Made.Truthful ⟨c, r⟩ := by
  simp [TruthfulCall]

/-- The user pause is never pending. -/
def NeverPending (r : DeviceStateReceiver) : Prop := r.userpause ≠ .pendingDisconnect

theorem mDelayDisconnectRunnable_truthful : TruthfulCall r.mDelayDisconnectRunnable := by
  unfold DeviceStateReceiver.mDelayDisconnectRunnable
  split
  case isTrue => simp
  case isFalse =>
      simp only [truthfulCall_some, truthful_pause]
      right; right
      split <;> rfl

theorem updateByteCount_truthful (now diffIn diffOut : Int) : TruthfulCall (r.updateByteCount now diffIn diffOut) := by
  unfold DeviceStateReceiver.updateByteCount
  split
  case isTrue => simp
  case isFalse =>
      dsimp only
      split
      case isTrue => simp [truthful_pause, SomeOff]
      case isFalse => simp

theorem screenOff_truthful (now : Int) (prefs : Preferences) : TruthfulCall (r.screenOff now prefs) := by
  unfold DeviceStateReceiver.screenOff
  split <;> simp

theorem truthfulCall_of_no_pause {result : DeviceStateReceiver × Option Call}
    (h : ∀ reason, result.2 ≠ some (.pause reason)) : TruthfulCall result := by
  intro c hc
  cases c with
  | pause reason => exact absurd hc (h reason)
  | resume => simp
  | networkChange same => simp

theorem networkConnected_truthful (info : NetworkInfo) : TruthfulCall (r.networkConnected info) := by
  apply truthfulCall_of_no_pause
  intro reason
  unfold DeviceStateReceiver.networkConnected
  dsimp only
  split_ifs <;> simp

theorem networkStateChange_truthful (prefs : Preferences) (info : Option NetworkInfo) :
    TruthfulCall (r.networkStateChange prefs info) := by
  unfold DeviceStateReceiver.networkStateChange
  split
  case isTrue => simp
  case isFalse =>
      cases info with
      | none => dsimp only; split <;> simp
      | some info =>
          dsimp only
          split
          case isTrue => exact networkConnected_truthful info
          case isFalse => simp

theorem userPause_true_truthful : TruthfulCall (r.userPause true) := by
  simp [DeviceStateReceiver.userPause, truthful_pause, SomeOff]

/-- Both causes other than the user pause are on. -/
theorem shouldBeConnected_unpaused :
    DeviceStateReceiver.shouldBeConnected { r with userpause := .shouldBeConnected } = true ↔
      r.screen = .shouldBeConnected ∧ r.network = .shouldBeConnected := by
  simp [DeviceStateReceiver.shouldBeConnected]

theorem userPause_false_truthful : TruthfulCall (r.userPause false) ↔
    r.screen = .disconnected ∨ r.network = .disconnected ∨
      (r.screen = .shouldBeConnected ∧ r.network = .shouldBeConnected ∧ r.userpause ≠ .shouldBeConnected) := by
  unfold DeviceStateReceiver.userPause
  simp only [Bool.false_eq_true, if_false, Bool.and_eq_true, shouldBeConnected_unpaused]
  split
  case isTrue h =>
      obtain ⟨⟨hscreen, hnetwork⟩, hwere⟩ := h
      have hpaused : r.userpause ≠ .shouldBeConnected := by
        intro hu
        simp [DeviceStateReceiver.shouldBeConnected, hscreen, hnetwork, hu] at hwere
      simp [hscreen, hnetwork, hpaused]
  case isFalse h =>
      have hstays : ¬ (r.screen = .shouldBeConnected ∧ r.network = .shouldBeConnected ∧
          r.userpause ≠ .shouldBeConnected) := by
        rintro ⟨hscreen, hnetwork, hpaused⟩
        apply h
        simp [DeviceStateReceiver.shouldBeConnected, hscreen, hnetwork, hpaused]
      simp [truthful_pause, SomeOff, hstays]

theorem screenOn_truthful (hr : NeverPending r) : TruthfulCall r.screenOn ↔
    r.userpause = .disconnected ∨ r.network ≠ .pendingDisconnect := by
  have hshould : DeviceStateReceiver.shouldBeConnected { r with screen := .shouldBeConnected } = true ↔
      r.userpause = .shouldBeConnected ∧ r.network = .shouldBeConnected := by
    simp [DeviceStateReceiver.shouldBeConnected]
  unfold DeviceStateReceiver.screenOn
  dsimp only
  split
  case isTrue hchanged =>
      -- The tunnel can only become connected here.
      have hafter : DeviceStateReceiver.shouldBeConnected { r with screen := .shouldBeConnected } = true := by
        cases hb : r.shouldBeConnected with
        | false => simpa [hb] using hchanged
        | true => exact hshould.mpr (DeviceStateReceiver.shouldBeConnected_iff.mp hb).2
      simp [(hshould.mp hafter).2]
  case isFalse =>
      split
      case isTrue hpaused =>
          rw [Bool.not_eq_true', ← Bool.not_eq_true, hshould] at hpaused
          simp only [truthfulCall_some, truthful_pause, SomeOff]
          cases hu : r.userpause with
          | pendingDisconnect => exact absurd hu hr
          | disconnected => simp
          | shouldBeConnected => cases hn : r.network <;> simp_all
      case isFalse hrunning =>
          rw [Bool.not_eq_true', Bool.not_eq_false, hshould] at hrunning
          simp [hrunning.2]

/-! ## Steps -/

/-- Every handler leaves the user pause on or off. -/
theorem NeverPending.handle (h : NeverPending r) (e : Event) : NeverPending (r.handle e).1 := by
  have hnetwork : ∀ (prefs : Preferences) (info : Option NetworkInfo),
      (r.networkStateChange prefs info).1.userpause = r.userpause := by
    intro prefs info
    unfold DeviceStateReceiver.networkStateChange DeviceStateReceiver.networkConnected
    cases info <;> dsimp only <;> split_ifs <;> rfl
  unfold NeverPending at *
  cases e with
  | accept => exact h
  | hold => exact h
  | resumeHoldExpires now => exact h
  | construct => simp [DeviceStateReceiver.handle]
  | register now prefs info => simpa [DeviceStateReceiver.handle, hnetwork] using h
  | connectivity now prefs info => simpa [DeviceStateReceiver.handle, hnetwork] using h
  | screenOff now prefs =>
      have hscreen : (r.screenOff now prefs).1.userpause = r.userpause := by
        unfold DeviceStateReceiver.screenOff DeviceStateReceiver.fillTrafficData
        split
        case isTrue => dsimp only; split <;> rfl
        case isFalse => rfl
      simpa [DeviceStateReceiver.handle, hscreen] using h
  | screenOn now =>
      simp only [DeviceStateReceiver.handle, DeviceStateReceiver.screenOn]
      split_ifs <;> exact h
  | userPause now pause =>
      simp only [DeviceStateReceiver.handle, DeviceStateReceiver.userPause]
      split_ifs <;> simp
  | byteCount now diffIn diffOut =>
      simp only [DeviceStateReceiver.handle, DeviceStateReceiver.updateByteCount]
      split_ifs <;> exact h
  | delayDisconnectExpires =>
      simp only [DeviceStateReceiver.handle, DeviceStateReceiver.mDelayDisconnectRunnable]
      split
      case isTrue => exact h
      case isFalse => dsimp only; split <;> exact h

/-- What the log of the calls gains by a step. -/
theorem Watched.step_eq {s s' : Watched} {e : Event} (hs : s.step e = some s') :
    s'.receiver = (s.receiver.handle e).1 ∧
      ((∀ m ∈ s'.calls, m.Truthful) ↔ (∀ m ∈ s.calls, m.Truthful) ∧ TruthfulCall (s.receiver.handle e)) := by
  have hgain : ∀ result : DeviceStateReceiver × Option Call,
      ((∀ m ∈ s.calls ++ result.2.toList.map fun c => ⟨c, result.1⟩, m.Truthful) ↔
        (∀ m ∈ s.calls, m.Truthful) ∧ TruthfulCall result) := by
    intro result
    simp only [List.forall_mem_append, List.forall_mem_map, Option.mem_toList, Option.mem_def, TruthfulCall]
  cases e with
  | accept => cases hs
  | hold => cases hs
  | construct => cases hs
  | resumeHoldExpires now => cases hs
  | register now prefs info => cases hs; exact ⟨rfl, hgain _⟩
  | connectivity now prefs info => cases hs; exact ⟨rfl, hgain _⟩
  | screenOff now prefs => cases hs; exact ⟨rfl, hgain _⟩
  | screenOn now => cases hs; exact ⟨rfl, hgain _⟩
  | userPause now pause => cases hs; exact ⟨rfl, hgain _⟩
  | byteCount now diffIn diffOut => cases hs; exact ⟨rfl, hgain _⟩
  | delayDisconnectExpires => cases hs; exact ⟨rfl, hgain _⟩

/-- The call of an event that the receiver handles is truthful exactly under `PausesTruthfully`. -/
theorem truthfulCall_handle {s s' : Watched} {e : Event} (h : NeverPending s.receiver) (hs : s.step e = some s') :
    TruthfulCall (s.receiver.handle e) ↔ PausesTruthfully s e := by
  cases e with
  | accept => cases hs
  | hold => cases hs
  | construct => cases hs
  | resumeHoldExpires now => cases hs
  | register now prefs info => exact iff_of_true (networkStateChange_truthful prefs info) trivial
  | connectivity now prefs info => exact iff_of_true (networkStateChange_truthful prefs info) trivial
  | screenOff now prefs => exact iff_of_true (screenOff_truthful now prefs) trivial
  | screenOn now => exact screenOn_truthful h
  | userPause now pause =>
      cases pause with
      | true => exact iff_of_true userPause_true_truthful trivial
      | false => exact userPause_false_truthful
  | byteCount now diffIn diffOut => exact iff_of_true (updateByteCount_truthful now diffIn diffOut) trivial
  | delayDisconnectExpires => exact iff_of_true mDelayDisconnectRunnable_truthful trivial

end AllInSafe.Pause
