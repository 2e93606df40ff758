import AllInSafe.Pause.Lemmas.Basic
import AllInSafe.Pause.Receiver

/-!
# The receiver within the session

A session handles an event as its receiver does on its own, and the management thread gets the call that the receiver
makes: it keeps the reason of a pause until the next pause or resume.
-/

namespace AllInSafe.Pause
open AllInSafe.Library

/-- The reason that the management thread keeps after a call. -/
def keptReason (last : PauseReason) : Option Call → PauseReason
  | some (.pause reason) => reason
  | some .resume => .noNetwork
  | some (.networkChange _) | none => last

namespace Session

variable {s : Session}

/-! ## The kept reason under the management thread -/

@[simp] theorem managmentCommand_lastPauseReason (cmd : String) :
    (s.managmentCommand cmd).lastPauseReason = s.lastPauseReason := by
  unfold managmentCommand; split <;> rfl

@[simp] theorem releaseHold_lastPauseReason (now : Int) : (s.releaseHold now).lastPauseReason = s.lastPauseReason := by
  unfold releaseHold; split <;> simp [releaseHoldCmd]

@[simp] theorem networkChange_lastPauseReason (now : Int) (same : Bool) :
    (s.networkChange now same).lastPauseReason = s.lastPauseReason := by
  unfold networkChange; split_ifs <;> simp

@[simp] theorem pause_lastPauseReason (reason : PauseReason) : (s.pause reason).lastPauseReason = reason := by
  unfold pause signalusr1; dsimp only; split <;> simp

@[simp] theorem resume_lastPauseReason (now : Int) : (s.resume now).lastPauseReason = .noNetwork := rfl

/-! ## Handlers -/

/-- The session has done what the receiver does, and has kept the reason of its call. -/
def Does (s s' : Session) (result : DeviceStateReceiver × Option Call) : Prop :=
  s'.receiver = result.1 ∧ s'.lastPauseReason = keptReason s.lastPauseReason result.2

theorem does_mDelayDisconnectRunnable : Does s s.mDelayDisconnectRunnable s.receiver.mDelayDisconnectRunnable := by
  unfold mDelayDisconnectRunnable DeviceStateReceiver.mDelayDisconnectRunnable
  split
  case isTrue => exact ⟨rfl, rfl⟩
  case isFalse => constructor <;> simp [keptReason]

theorem does_updateByteCount (now diffIn diffOut : Int) :
    Does s (s.updateByteCount now diffIn diffOut) (s.receiver.updateByteCount now diffIn diffOut) := by
  unfold updateByteCount DeviceStateReceiver.updateByteCount
  split
  case isTrue => exact ⟨rfl, rfl⟩
  case isFalse =>
      dsimp only
      split
      case isTrue => constructor <;> simp [keptReason]
      case isFalse => exact ⟨rfl, rfl⟩

theorem does_userPause (now : Int) (pause : Bool) : Does s (s.userPause now pause) (s.receiver.userPause pause) := by
  unfold userPause DeviceStateReceiver.userPause
  split
  case isTrue => constructor <;> simp [keptReason]
  case isFalse =>
      dsimp only
      split <;> constructor <;> simp [keptReason]

theorem does_screenOff (now : Int) (prefs : Preferences) :
    Does s (s.screenOff now prefs) (s.receiver.screenOff now prefs) := by
  unfold screenOff DeviceStateReceiver.screenOff
  split <;> exact ⟨rfl, rfl⟩

theorem does_screenOn (now : Int) : Does s (s.screenOn now) s.receiver.screenOn := by
  unfold screenOn DeviceStateReceiver.screenOn
  dsimp only
  split_ifs <;> constructor <;> simp [keptReason]

theorem does_networkConnected (now : Int) (info : NetworkInfo) :
    Does s (s.networkConnected now info) (s.receiver.networkConnected info) := by
  unfold networkConnected DeviceStateReceiver.networkConnected
  dsimp only
  split
  case isTrue => constructor <;> simp [keptReason]
  case isFalse =>
      generalize (if s.receiver.screen = .pendingDisconnect then _ else _ : DeviceStateReceiver) = r
      split_ifs <;> constructor <;> simp [keptReason]

theorem does_networkStateChange (now : Int) (prefs : Preferences) (info : Option NetworkInfo) :
    Does s (s.networkStateChange now prefs info) (s.receiver.networkStateChange prefs info) := by
  unfold networkStateChange DeviceStateReceiver.networkStateChange
  split
  case isTrue => exact ⟨rfl, rfl⟩
  case isFalse =>
      cases info with
      | none => dsimp only; split <;> exact ⟨rfl, rfl⟩
      | some info =>
          dsimp only
          split
          case isTrue => exact does_networkConnected now info
          case isFalse => exact ⟨rfl, rfl⟩

/-- The step lemma: an event does to the receiver of a session what it does to the receiver alone. -/
theorem step_does {s' : Session} {e : Event} (hs : s.step e = some s') : Does s s' (s.receiver.handle e) := by
  cases e <;> simp only [Session.step, Option.ite_none_left_eq_some, Option.ite_none_right_eq_some,
    Option.some.injEq] at hs <;> obtain ⟨-, rfl⟩ := hs
  case accept => constructor <;> simp [DeviceStateReceiver.handle, keptReason]
  case hold =>
      unfold handleHold
      dsimp only
      split <;> exact ⟨rfl, rfl⟩
  case construct => exact ⟨rfl, rfl⟩
  case register now prefs info => exact does_networkStateChange now prefs info
  case connectivity now prefs info => exact does_networkStateChange now prefs info
  case screenOff now prefs => exact does_screenOff now prefs
  case screenOn now => exact does_screenOn now
  case userPause now pause => exact does_userPause now pause
  case byteCount now diffIn diffOut => exact does_updateByteCount now diffIn diffOut
  case delayDisconnectExpires =>
      exact does_mDelayDisconnectRunnable (s := { s with delayedDisconnects := s.delayedDisconnects - 1 })
  case resumeHoldExpires now =>
      unfold mResumeHoldRunnable
      split
      case isTrue => constructor <;> simp [DeviceStateReceiver.handle, keptReason, releaseHoldCmd]
      case isFalse => exact ⟨rfl, rfl⟩

end Session

end AllInSafe.Pause
