import AllInSafe.Pause.Lemmas.Basic

/-!
# Only `userPause(false)` ends a pause by the user
-/

namespace AllInSafe.Pause
open AllInSafe.Library

/-- The set-up of the receiver and the cause `userpause` are the same in both states. -/
def SamePause (s t : Session) : Prop :=
  t.phase = s.phase ∧ t.receiver.userpause = s.receiver.userpause

namespace SamePause

variable {s : Session}

theorem mDelayDisconnectRunnable : SamePause s s.mDelayDisconnectRunnable := by
  unfold Session.mDelayDisconnectRunnable
  split
  · exact ⟨rfl, rfl⟩
  · refine ⟨by simp, ?_⟩
    simp only [Session.pause_receiver]
    split <;> rfl

theorem updateByteCount (now diffIn diffOut : Int) : SamePause s (s.updateByteCount now diffIn diffOut) := by
  unfold Session.updateByteCount
  split
  · exact ⟨rfl, rfl⟩
  · dsimp only
    split <;> constructor <;> simp

theorem screenOff (now : Int) (prefs : Preferences) : SamePause s (s.screenOff now prefs) := by
  unfold Session.screenOff
  split
  · refine ⟨rfl, ?_⟩
    dsimp only
    split <;> rfl
  · exact ⟨rfl, rfl⟩

theorem screenOn (now : Int) : SamePause s (s.screenOn now) := by
  unfold Session.screenOn
  dsimp only
  split_ifs <;> constructor <;> simp

theorem networkConnected (now : Int) (info : NetworkInfo) : SamePause s (s.networkConnected now info) := by
  unfold Session.networkConnected
  dsimp only
  split
  · constructor <;> simp
  · have hu : ∀ r : DeviceStateReceiver, (if r.screen = .pendingDisconnect
        then { r with screen := .disconnected } else r).userpause = r.userpause := by
      intro r; split <;> rfl
    have hr := hu { s.receiver with network := .shouldBeConnected }
    revert hr
    generalize (if s.receiver.screen = .pendingDisconnect then _ else _ : DeviceStateReceiver) = r
    intro hr
    constructor <;> split_ifs <;> simp_all

theorem networkStateChange (now : Int) (prefs : Preferences) (networkInfo : Option NetworkInfo) :
    SamePause s (s.networkStateChange now prefs networkInfo) := by
  unfold Session.networkStateChange
  split
  · exact ⟨rfl, rfl⟩
  · cases networkInfo with
    | some info =>
        dsimp only
        split
        · exact networkConnected now info
        · exact ⟨rfl, rfl⟩
    | none =>
        dsimp only
        split <;> exact ⟨rfl, rfl⟩

theorem mResumeHoldRunnable (now : Int) : SamePause s (s.mResumeHoldRunnable now) := by
  unfold Session.mResumeHoldRunnable
  split
  · exact ⟨by simp [Session.releaseHoldCmd], by simp⟩
  · exact ⟨rfl, rfl⟩

end SamePause

/-- The user has paused the session through its registered receiver. -/
def UserPaused (s : Session) : Prop := s.phase = .registered ∧ s.receiver.userpause = .disconnected

theorem UserPaused.of_same {s t : Session} (h : UserPaused s) (hs : SamePause s t) : UserPaused t :=
  ⟨hs.1.trans h.1, hs.2.trans h.2⟩

theorem UserPaused.of_userPause {s s' : Session} {now : Int} (hs : s.step (.userPause now true) = some s') :
    UserPaused s' := by
  simp only [Session.step, Option.ite_none_right_eq_some, Option.some.injEq] at hs
  obtain ⟨hen, rfl⟩ := hs
  exact ⟨by simpa [Session.userPause, Session.registered] using hen, by simp [Session.userPause]⟩

/-- The step lemma: an event other than `userPause(false)` keeps the pause. -/
theorem UserPaused.step {s s' : Session} {e : Event} (h : UserPaused s) (he : ∀ t, e ≠ .userPause t false)
    (hs : s.step e = some s') : UserPaused s' := by
  cases e <;> simp only [Session.step, Option.ite_none_left_eq_some, Option.ite_none_right_eq_some,
    Option.some.injEq] at hs <;> obtain ⟨hen, rfl⟩ := hs
  case accept => exact h.of_same ⟨by simp, by simp⟩
  case hold => exact h.of_same (by unfold Session.handleHold; dsimp only; split <;> exact ⟨rfl, rfl⟩)
  case construct => rw [h.1] at hen; cases hen
  case register now prefs info => rw [h.1] at hen; cases hen
  case connectivity now prefs info => exact h.of_same (SamePause.networkStateChange now prefs info)
  case screenOff now prefs => exact h.of_same (SamePause.screenOff now prefs)
  case screenOn now => exact h.of_same (SamePause.screenOn now)
  case userPause now pause =>
    cases pause with
    | true => exact @UserPaused.of_userPause s _ now (by simp [Session.step, hen])
    | false => exact absurd rfl (he now)
  case byteCount now diffIn diffOut => exact h.of_same (SamePause.updateByteCount now diffIn diffOut)
  case delayDisconnectExpires =>
    exact UserPaused.of_same (s := { s with delayedDisconnects := s.delayedDisconnects - 1 }) h
      SamePause.mDelayDisconnectRunnable
  case resumeHoldExpires now =>
    exact UserPaused.of_same (s := { s with resumeHolds := s.resumeHolds - 1 }) h
      (SamePause.mResumeHoldRunnable now)

end AllInSafe.Pause
