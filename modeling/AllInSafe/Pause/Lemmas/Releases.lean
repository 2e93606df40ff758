import AllInSafe.Pause.Lemmas.UserPause

/-!
# What the events write to the management socket

A step appends its commands, each recorded with the `shouldBeConnected()` that holds at the end of the step.
-/

namespace AllInSafe.Pause
open AllInSafe.Library

/-- From `s` to `t`, commands are appended, and `hold release` only when the tunnel should be connected. -/
def Wrote (s t : Session) : Prop :=
  ∃ ws, t.written = s.written ++ ws ∧ ∀ w ∈ ws, w.connected = t.receiver.shouldBeConnected ∧
    (w.command = "hold release\n" → t.receiver.shouldBeConnected = true)

/-- A network event that finds the same network again during the disconnect delay, with a hold waiting,
comes when neither the screen nor the user keeps the tunnel down. -/
def ReleaseGuarded (s : Session) : Event → Prop
  | .register _ prefs (some info) | .connectivity _ prefs (some info) =>
      prefs.ignorenetstate = false → info.state = .connected →
      s.receiver.network = .pendingDisconnect → s.receiver.sameNetwork info = true →
      s.mWaitingForRelease = true →
      s.receiver.screen = .shouldBeConnected ∧ s.receiver.userpause = .shouldBeConnected
  | _ => True

instance : (s : Session) → (e : Event) → Decidable (ReleaseGuarded s e)
  | s, .register _ prefs (some info) | s, .connectivity _ prefs (some info) =>
      inferInstanceAs (Decidable (prefs.ignorenetstate = false → info.state = .connected →
        s.receiver.network = .pendingDisconnect → s.receiver.sameNetwork info = true → _ → _))
  | _, .register _ _ none | _, .connectivity _ _ none | _, .accept | _, .hold | _, .construct
  | _, .screenOff _ _ | _, .screenOn _ | _, .userPause _ _ | _, .byteCount _ _ _ | _, .delayDisconnectExpires
  | _, .resumeHoldExpires _ => isTrue trivial

namespace Wrote

variable {s t u : Session}

theorem of_written_eq (h : t.written = s.written) : Wrote s t := ⟨[], by simp [h], by simp⟩

theorem of_start_eq (hs : s.written = t.written) (h : Wrote s u) : Wrote t u := by
  obtain ⟨ws, hw, hall⟩ := h
  exact ⟨ws, by rw [hw, hs], hall⟩

theorem of_end_eq (hw : u.written = t.written)
    (hr : u.receiver.shouldBeConnected = t.receiver.shouldBeConnected) (h : Wrote s t) : Wrote s u := by
  obtain ⟨ws, he, hall⟩ := h
  exact ⟨ws, by rw [hw, he], by rw [hr]; exact hall⟩

theorem trans (h₁ : Wrote s t) (h₂ : Wrote t u)
    (hr : u.receiver.shouldBeConnected = t.receiver.shouldBeConnected) : Wrote s u := by
  obtain ⟨ws, hw, hall⟩ := h₁
  obtain ⟨vs, hv, hall'⟩ := h₂
  refine ⟨ws ++ vs, by rw [hv, hw, List.append_assoc], ?_⟩
  intro w hm
  rcases List.mem_append.mp hm with hm | hm
  · rw [hr]; exact hall w hm
  · exact hall' w hm

/-! ## The management thread -/

theorem managmentCommand {cmd : String}
    (h : cmd = "hold release\n" → s.receiver.shouldBeConnected = true) : Wrote s (s.managmentCommand cmd) := by
  by_cases hs : s.mSocket = true
  · refine ⟨[⟨cmd, s.receiver.shouldBeConnected⟩], by simp [Session.managmentCommand, hs], ?_⟩
    simpa using h
  · exact of_written_eq (by simp [Session.managmentCommand, hs])

/-- The three commands of `releaseHoldCmd`, from any state in which the tunnel should be connected. -/
theorem releaseCommands (a b c : String) (h : s.receiver.shouldBeConnected = true) :
    Wrote s (((s.managmentCommand a).managmentCommand b).managmentCommand c) := by
  have hb : (s.managmentCommand a).receiver.shouldBeConnected = true := by simpa using h
  have hc : ((s.managmentCommand a).managmentCommand b).receiver.shouldBeConnected = true := by simpa using h
  exact trans (trans (managmentCommand fun _ => h) (managmentCommand fun _ => hb) (by simp))
    (managmentCommand fun _ => hc) (by simp)

theorem releaseHoldCmd (now : Int) (h : s.receiver.shouldBeConnected = true) :
    Wrote s (s.releaseHoldCmd now) := by
  unfold Session.releaseHoldCmd
  exact of_start_eq (t := s) (by simp) (releaseCommands _ _ _ h)

theorem releaseHold (now : Int) (h : s.mWaitingForRelease = true → s.receiver.shouldBeConnected = true) :
    Wrote s (s.releaseHold now) := by
  unfold Session.releaseHold
  split
  · rename_i hw; exact releaseHoldCmd now (h hw)
  · exact of_written_eq rfl

theorem networkChange (now : Int) (b : Bool)
    (h : s.mWaitingForRelease = true → s.receiver.shouldBeConnected = true) :
    Wrote s (s.networkChange now b) := by
  unfold Session.networkChange
  split
  · exact releaseHold now h
  · split <;> exact managmentCommand fun he => absurd he (by decide)

theorem pause (reason : PauseReason) : Wrote s (s.pause reason) := by
  unfold Session.pause Session.signalusr1
  dsimp only
  split
  · exact of_start_eq (s := { s with lastPauseReason := reason, resumeHolds := 0 }) rfl
      (managmentCommand fun he => absurd he (by decide))
  · exact of_written_eq rfl

theorem resume (now : Int) (h : s.receiver.shouldBeConnected = true) : Wrote s (s.resume now) :=
  of_end_eq (t := s.releaseHold now) rfl rfl (releaseHold now fun _ => h)

theorem mResumeHoldRunnable (now : Int) : Wrote s (s.mResumeHoldRunnable now) := by
  unfold Session.mResumeHoldRunnable
  split
  · rename_i h
    exact releaseHoldCmd now (by simp [Session.shouldBeRunning] at h; exact h.2)
  · exact of_written_eq rfl

/-! ## The receiver -/

theorem mDelayDisconnectRunnable : Wrote s s.mDelayDisconnectRunnable := by
  unfold Session.mDelayDisconnectRunnable
  split
  · exact of_written_eq rfl
  · exact of_start_eq (by simp) (pause _)

theorem updateByteCount (now diffIn diffOut : Int) : Wrote s (s.updateByteCount now diffIn diffOut) := by
  unfold Session.updateByteCount
  split
  · exact of_written_eq rfl
  · dsimp only
    split
    · exact of_start_eq (by simp) (pause _)
    · exact of_written_eq rfl

theorem userPause (now : Int) (pause : Bool) : Wrote s (s.userPause now pause) := by
  unfold Session.userPause
  cases pause with
  | true => exact of_start_eq (by simp) (Wrote.pause _)
  | false =>
      simp only [Bool.false_eq_true, ↓reduceIte]
      split
      · rename_i h
        simp only [Bool.and_eq_true] at h
        exact of_start_eq (by simp) (resume now h.1)
      · exact of_start_eq (by simp) (Wrote.pause _)

theorem screenOff (now : Int) (prefs : Preferences) : Wrote s (s.screenOff now prefs) := by
  unfold Session.screenOff
  split <;> exact of_written_eq rfl

theorem screenOn (now : Int) : Wrote s (s.screenOn now) := by
  unfold Session.screenOn
  dsimp only
  split
  · rename_i h
    refine of_start_eq (by simp) (resume now ?_)
    -- Switching the screen on can only make the tunnel wanted.
    cases hc : s.receiver.shouldBeConnected with
    | true =>
        obtain ⟨_, hu, hn⟩ := DeviceStateReceiver.shouldBeConnected_iff.mp hc
        rw [hc] at h
        exact absurd (by rw [DeviceStateReceiver.shouldBeConnected_iff]; exact ⟨rfl, hu, hn⟩) h
    | false => simpa [hc] using h
  · split
    · exact of_start_eq (by simp) (pause _)
    · exact of_written_eq rfl

theorem networkConnected (now : Int) (info : NetworkInfo)
    (hg : s.receiver.network = .pendingDisconnect → s.receiver.sameNetwork info = true →
      s.mWaitingForRelease = true →
      s.receiver.screen = .shouldBeConnected ∧ s.receiver.userpause = .shouldBeConnected) :
    Wrote s (s.networkConnected now info) := by
  unfold Session.networkConnected
  dsimp only
  split
  · rename_i h
    simp only [Bool.and_eq_true, decide_eq_true_eq] at h
    refine of_start_eq (by simp) (networkChange now true ?_)
    intro hw
    obtain ⟨hs, hu⟩ := hg h.1 h.2 hw
    exact DeviceStateReceiver.shouldBeConnected_iff.mpr ⟨hs, hu, rfl⟩
  · generalize (if s.receiver.screen = .pendingDisconnect then _ else _ : DeviceStateReceiver) = r
    by_cases hc : r.shouldBeConnected = true
    · simp only [hc, ↓reduceIte]
      split
      · exact of_end_eq rfl (by simp [DeviceStateReceiver.shouldBeConnected])
          (of_start_eq (t := s) (by simp) (networkChange now _ fun _ => hc))
      · exact of_end_eq rfl (by simp [DeviceStateReceiver.shouldBeConnected])
          (of_start_eq (t := s) (by simp) (resume now hc))
    · simp only [hc]
      exact of_written_eq rfl

theorem networkStateChange (now : Int) {prefs : Preferences} {networkInfo : Option NetworkInfo}
    (hg : ReleaseGuarded s (.connectivity now prefs networkInfo)) :
    Wrote s (s.networkStateChange now prefs networkInfo) := by
  unfold Session.networkStateChange
  split
  · exact of_written_eq rfl
  · rename_i hi
    cases networkInfo with
    | some info =>
        dsimp only
        split
        · rename_i hc
          exact networkConnected now info (hg (by simpa using hi) hc)
        · exact of_written_eq rfl
    | none =>
        dsimp only
        split <;> exact of_written_eq rfl

/-- The step lemma: a guarded event writes `hold release` only when the tunnel should be connected. -/
theorem step {s' : Session} {e : Event} (hg : ReleaseGuarded s e) (hs : s.step e = some s') :
    Wrote s s' := by
  cases e <;> simp only [Session.step, Option.ite_none_left_eq_some, Option.ite_none_right_eq_some,
    Option.some.injEq] at hs <;> obtain ⟨hen, rfl⟩ := hs
  case accept =>
    exact of_start_eq (s := { s with mSocket := true }) rfl (managmentCommand fun he => absurd he (by decide))
  case hold => exact of_written_eq (by unfold Session.handleHold; dsimp only; split <;> rfl)
  case construct => exact of_written_eq rfl
  case register now prefs networkInfo =>
    refine of_end_eq (t := s.networkStateChange now prefs networkInfo) rfl rfl (networkStateChange now ?_)
    cases networkInfo <;> exact hg
  case connectivity now prefs networkInfo => exact networkStateChange now hg
  case screenOff now prefs => exact screenOff now prefs
  case screenOn now => exact screenOn now
  case userPause now pause => exact userPause now pause
  case byteCount now diffIn diffOut => exact updateByteCount now diffIn diffOut
  case delayDisconnectExpires => exact of_start_eq (by simp) mDelayDisconnectRunnable
  case resumeHoldExpires now => exact of_start_eq (by simp) (mResumeHoldRunnable now)

end Wrote

/-! ## Over runs -/

/-- Every `hold release` so far was written while the tunnel should be connected. -/
def ReleasedConnected (s : Session) : Prop :=
  ∀ w ∈ s.written, w.command = "hold release\n" → w.connected = true

theorem ReleasedConnected.step {s s' : Session} {e : Event} (h : ReleasedConnected s)
    (hg : ReleaseGuarded s e) (hs : s.step e = some s') : ReleasedConnected s' := by
  obtain ⟨ws, hw, hall⟩ := Wrote.step hg hs
  intro w hm hc
  rw [hw] at hm
  rcases List.mem_append.mp hm with hm | hm
  · exact h w hm hc
  · obtain ⟨heq, hr⟩ := hall w hm
    rw [heq]; exact hr hc

/-- The user has paused the session, and since the state `t` nothing was released. -/
def PausedSince (t s : Session) : Prop :=
  UserPaused s ∧ ∃ ws, s.written = t.written ++ ws ∧ ∀ w ∈ ws, w.command ≠ "hold release\n"

theorem PausedSince.step {t s s' : Session} {e : Event} (h : PausedSince t s)
    (hg : ReleaseGuarded s e ∧ ∀ now, e ≠ .userPause now false) (hs : s.step e = some s') :
    PausedSince t s' := by
  obtain ⟨hp, ws, hw, hall⟩ := h
  have hp' := hp.step hg.2 hs
  obtain ⟨vs, hv, hall'⟩ := Wrote.step hg.1 hs
  refine ⟨hp', ws ++ vs, by rw [hv, hw, List.append_assoc], ?_⟩
  intro w hm hc
  rcases List.mem_append.mp hm with hm | hm
  · exact hall w hm hc
  · -- A release would need the tunnel to be wanted, which the pause excludes.
    have hr := DeviceStateReceiver.shouldBeConnected_iff.mp ((hall' w hm).2 hc)
    rw [hp'.2] at hr
    cases hr.2.1

end AllInSafe.Pause
