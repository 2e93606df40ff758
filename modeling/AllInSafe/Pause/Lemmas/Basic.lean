import AllInSafe.Pause.Model
import Mathlib.Tactic.Common

/-!
# What each handler of the management thread changes

The receiver is never touched by the management thread, and the two flags that decide about a hold are
changed only where it is released or a new one starts.
-/

namespace AllInSafe.Pause
open AllInSafe.Library

namespace Session

/-! ## The receiver under the management thread -/

@[simp] theorem managmentCommand_receiver (cmd : String) (s : Session) :
    (s.managmentCommand cmd).receiver = s.receiver := by
  unfold managmentCommand; split <;> rfl

@[simp] theorem managmentCommand_mWaitingForRelease (cmd : String) (s : Session) :
    (s.managmentCommand cmd).mWaitingForRelease = s.mWaitingForRelease := by
  unfold managmentCommand; split <;> rfl

@[simp] theorem managmentCommand_phase (cmd : String) (s : Session) :
    (s.managmentCommand cmd).phase = s.phase := by
  unfold managmentCommand; split <;> rfl

@[simp] theorem managmentCommand_resumeHolds (cmd : String) (s : Session) :
    (s.managmentCommand cmd).resumeHolds = s.resumeHolds := by
  unfold managmentCommand; split <;> rfl

@[simp] theorem releaseHoldCmd_receiver (now : Int) (s : Session) :
    (s.releaseHoldCmd now).receiver = s.receiver := by
  simp [releaseHoldCmd]

@[simp] theorem releaseHoldCmd_mWaitingForRelease (now : Int) (s : Session) :
    (s.releaseHoldCmd now).mWaitingForRelease = false := by
  simp [releaseHoldCmd]

@[simp] theorem releaseHold_receiver (now : Int) (s : Session) :
    (s.releaseHold now).receiver = s.receiver := by
  unfold releaseHold; split <;> simp

@[simp] theorem releaseHold_mWaitingForRelease (now : Int) (s : Session) :
    (s.releaseHold now).mWaitingForRelease = false := by
  unfold releaseHold; split <;> simp_all

@[simp] theorem networkChange_receiver (now : Int) (b : Bool) (s : Session) :
    (s.networkChange now b).receiver = s.receiver := by
  unfold networkChange; split_ifs <;> simp

@[simp] theorem networkChange_mWaitingForRelease (now : Int) (b : Bool) (s : Session) :
    (s.networkChange now b).mWaitingForRelease = false := by
  unfold networkChange; split_ifs <;> simp_all

@[simp] theorem signalusr1_receiver (s : Session) : s.signalusr1.receiver = s.receiver := by
  unfold signalusr1; dsimp only; split <;> simp

@[simp] theorem signalusr1_mWaitingForRelease (s : Session) :
    s.signalusr1.mWaitingForRelease = s.mWaitingForRelease := by
  unfold signalusr1; dsimp only; split <;> simp

@[simp] theorem pause_mWaitingForRelease (reason : PauseReason) (s : Session) :
    (s.pause reason).mWaitingForRelease = s.mWaitingForRelease := by
  simp [pause]

@[simp] theorem pause_receiver (reason : PauseReason) (s : Session) :
    (s.pause reason).receiver = s.receiver := by
  simp [pause]

@[simp] theorem resume_receiver (now : Int) (s : Session) : (s.resume now).receiver = s.receiver := by
  simp [resume]

@[simp] theorem resume_mWaitingForRelease (now : Int) (s : Session) :
    (s.resume now).mWaitingForRelease = false := by
  simp [resume]

@[simp] theorem releaseHold_phase (now : Int) (s : Session) :
    (s.releaseHold now).phase = s.phase := by
  unfold releaseHold; split <;> simp [releaseHoldCmd]

@[simp] theorem networkChange_phase (now : Int) (b : Bool) (s : Session) :
    (s.networkChange now b).phase = s.phase := by
  unfold networkChange; split_ifs <;> simp

@[simp] theorem pause_phase (reason : PauseReason) (s : Session) :
    (s.pause reason).phase = s.phase := by
  unfold pause signalusr1; dsimp only; split <;> simp

@[simp] theorem resume_phase (now : Int) (s : Session) :
    (s.resume now).phase = s.phase := by
  simp [resume]

end Session

namespace DeviceStateReceiver

theorem shouldBeConnected_iff {r : DeviceStateReceiver} :
    r.shouldBeConnected = true ↔
      r.screen = .shouldBeConnected ∧ r.userpause = .shouldBeConnected ∧ r.network = .shouldBeConnected := by
  simp [shouldBeConnected, and_assoc]

end DeviceStateReceiver

end AllInSafe.Pause
