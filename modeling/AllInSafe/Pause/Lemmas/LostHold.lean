import AllInSafe.Pause.Lemmas.UserPause

/-!
# A hold that should be released has its release pending

The invariant, and for each handler of the receiver the condition under which it preserves the invariant.
-/

namespace AllInSafe.Pause
open AllInSafe.Library

/-- A hold waits, the tunnel should be running, and so a resume-hold runnable is pending. -/
def NoLostHold (s : Session) : Prop :=
  s.mWaitingForRelease = true → s.shouldBeRunning = true → 0 < s.resumeHolds

/-- The two kinds of event that lose a hold are left out: a resume by the user while the tunnel should be
connected already, and a network event that is ignored by preference but makes the tunnel wanted. -/
def KeepsHold (s : Session) : Event → Prop
  | .userPause _ pause => ¬ (pause = false ∧ s.receiver.shouldBeConnected = true ∧ s.mWaitingForRelease = true)
  | .register _ prefs _ | .connectivity _ prefs _ =>
      ¬ (prefs.ignorenetstate = true ∧ s.mWaitingForRelease = true ∧ s.resumeHolds = 0 ∧
        s.receiver.screen = .shouldBeConnected ∧ s.receiver.userpause = .shouldBeConnected ∧
        s.receiver.network ≠ .shouldBeConnected)
  | _ => True

instance : (s : Session) → (e : Event) → Decidable (KeepsHold s e)
  | s, .userPause _ pause => inferInstanceAs (Decidable (¬ (pause = false ∧ _ ∧ s.mWaitingForRelease = true)))
  | s, .register _ prefs _ => inferInstanceAs (Decidable (¬ (prefs.ignorenetstate = true ∧ _ ∧ s.resumeHolds = 0 ∧ _)))
  | s, .connectivity _ prefs _ => inferInstanceAs (Decidable (¬ (prefs.ignorenetstate = true ∧ _ ∧ s.resumeHolds = 0 ∧ _)))
  | _, .accept | _, .hold | _, .construct | _, .screenOff _ _ | _, .screenOn _ | _, .byteCount _ _ _
  | _, .delayDisconnectExpires | _, .resumeHoldExpires _ => isTrue trivial

namespace NoLostHold

variable {s : Session}

theorem of_not_waiting (h : s.mWaitingForRelease = false) : NoLostHold s := by
  intro hw; rw [h] at hw; cases hw

theorem of_not_connected (h : s.receiver.shouldBeConnected = false) : NoLostHold s := by
  intro _ hr; simp [Session.shouldBeRunning, h] at hr

/-- Only the four fields that the invariant reads matter. -/
theorem congr {t : Session} (hw : t.mWaitingForRelease = s.mWaitingForRelease)
    (hc : t.mPauseCallback = s.mPauseCallback) (hr : t.receiver.shouldBeConnected = s.receiver.shouldBeConnected)
    (hp : t.resumeHolds = s.resumeHolds) (h : NoLostHold s) : NoLostHold t := by
  intro h1 h2
  rw [hp]
  exact h (hw ▸ h1) (by simpa [Session.shouldBeRunning, hc, hr] using h2)

theorem handleHold : NoLostHold s.handleHold := by
  intro _ hr
  by_cases h : ({ s with mWaitingForRelease := true } : Session).shouldBeRunning = true
  · simp [Session.handleHold, h]
  · simp only [Session.handleHold, h] at hr
    exact absurd hr h

theorem mResumeHoldRunnable (now : Int) :
    NoLostHold ({ s with resumeHolds := s.resumeHolds - 1 }.mResumeHoldRunnable now) := by
  unfold Session.mResumeHoldRunnable
  split
  · exact of_not_waiting (by simp)
  · rename_i h
    intro _ hr; exact absurd hr h

theorem mDelayDisconnectRunnable (h : NoLostHold s) : NoLostHold s.mDelayDisconnectRunnable := by
  unfold Session.mDelayDisconnectRunnable
  split
  · exact h
  · refine of_not_connected ?_
    simp only [Session.pause_receiver]
    split <;> simp [DeviceStateReceiver.shouldBeConnected]

theorem updateByteCount (now diffIn diffOut : Int) (h : NoLostHold s) :
    NoLostHold (s.updateByteCount now diffIn diffOut) := by
  unfold Session.updateByteCount
  split
  · exact h
  · rename_i hs
    simp only [ne_eq, not_not] at hs
    dsimp only
    split <;> exact of_not_connected (by simp [DeviceStateReceiver.shouldBeConnected, hs])

/-- A resume that changes nothing removes the runnable: the pause that it ends in must find no waiting hold. -/
theorem userPause (now : Int) {pause : Bool} (hg : KeepsHold s (.userPause now pause)) :
    NoLostHold (s.userPause now pause) := by
  unfold Session.userPause
  cases pause with
  | true => exact of_not_connected (by simp [DeviceStateReceiver.shouldBeConnected])
  | false =>
      simp only [Bool.false_eq_true, ↓reduceIte]
      split
      · exact of_not_waiting (by simp)
      · rename_i h
        by_cases hc : s.receiver.shouldBeConnected = true
        · have hw : s.mWaitingForRelease = false := by
            simpa [KeepsHold, hc] using hg
          exact of_not_waiting (by simp [hw])
        · exact of_not_connected (by simpa [hc] using h)

theorem screenOff (now : Int) (prefs : Preferences) (h : NoLostHold s) :
    NoLostHold (s.screenOff now prefs) := by
  unfold Session.screenOff
  split
  · refine of_not_connected ?_
    dsimp only
    split <;> simp [DeviceStateReceiver.shouldBeConnected, DeviceStateReceiver.fillTrafficData]
  · exact h

theorem screenOn (now : Int) (h : NoLostHold s) : NoLostHold (s.screenOn now) := by
  unfold Session.screenOn
  dsimp only
  split
  · exact of_not_waiting (by simp)
  · rename_i heq
    split
    · rename_i hc
      exact of_not_connected (by simpa using hc)
    · exact congr (s := s) rfl rfl (by simpa using heq) rfl h

theorem networkConnected (now : Int) (networkInfo : NetworkInfo) :
    NoLostHold (s.networkConnected now networkInfo) := by
  unfold Session.networkConnected
  dsimp only
  split
  · exact of_not_waiting (by simp)
  · -- What the screen state becomes does not matter: either the tunnel is wanted, or it is not.
    generalize (if s.receiver.screen = .pendingDisconnect then _ else _ : DeviceStateReceiver) = r
    split
    · refine of_not_waiting ?_
      dsimp only
      split <;> simp
    · rename_i hc
      exact of_not_connected (by simpa [DeviceStateReceiver.shouldBeConnected] using hc)

theorem networkStateChange (now : Int) {prefs : Preferences} {networkInfo : Option NetworkInfo}
    (hg : KeepsHold s (.connectivity now prefs networkInfo)) (h : NoLostHold s) :
    NoLostHold (s.networkStateChange now prefs networkInfo) := by
  unfold Session.networkStateChange
  split
  · rename_i hi
    intro hw hr
    simp only [KeepsHold, hi, true_and, not_and, not_not] at hg
    by_cases hp : s.resumeHolds = 0
    · simp only [Session.shouldBeRunning, Bool.and_eq_true, DeviceStateReceiver.shouldBeConnected_iff] at hr
      have hn := hg hw hp hr.2.1 hr.2.2.1
      have := h hw (by
        simp only [Session.shouldBeRunning, Bool.and_eq_true, DeviceStateReceiver.shouldBeConnected_iff]
        exact ⟨hr.1, hr.2.1, hr.2.2.1, hn⟩)
      omega
    · exact Nat.pos_of_ne_zero hp
  · cases networkInfo with
    | some info =>
        dsimp only
        split
        · exact networkConnected now info
        · exact h
    | none =>
        dsimp only
        split
        · exact of_not_connected (by simp [DeviceStateReceiver.shouldBeConnected])
        · exact h

/-- The step lemma: an event that is not one of the two kinds keeps the invariant. -/
theorem step {s' : Session} {e : Event} (h : NoLostHold s) (hg : KeepsHold s e)
    (hs : s.step e = some s') : NoLostHold s' := by
  cases e <;> simp only [Session.step, Option.ite_none_left_eq_some, Option.ite_none_right_eq_some,
    Option.some.injEq] at hs <;> obtain ⟨hen, rfl⟩ := hs
  case accept => exact congr (s := s) (by simp) (by simp [Session.mPauseCallback]) (by simp) (by simp) h
  case hold => exact handleHold
  case construct => exact of_not_connected rfl
  case register now prefs networkInfo =>
    have hlost : NoLostHold (s.networkStateChange now prefs networkInfo) := networkStateChange now hg h
    intro hw hr
    -- The receiver is the pause callback before its registration already.
    have hp := (SamePause.networkStateChange (s := s) now prefs networkInfo).1
    refine hlost hw ?_
    simp only [Session.shouldBeRunning, Bool.and_eq_true] at hr ⊢
    exact ⟨by simp [Session.mPauseCallback, hp, hen], hr.2⟩
  case connectivity now prefs networkInfo => exact networkStateChange now hg h
  case screenOff now prefs => exact screenOff now prefs h
  case screenOn now => exact screenOn now h
  case userPause now pause => exact userPause now hg
  case byteCount now diffIn diffOut => exact updateByteCount now diffIn diffOut h
  case delayDisconnectExpires => exact mDelayDisconnectRunnable (congr (s := s) rfl rfl rfl rfl h)
  case resumeHoldExpires now => exact mResumeHoldRunnable now

end NoLostHold

end AllInSafe.Pause
