import AllInSafe.Pause.Lemmas.LostHold
import AllInSafe.Pause.Lemmas.Releases
import AllInSafe.Pause.Lemmas.Calls
import AllInSafe.Pause.Lemmas.Truthful

/-!
# The pause logic over whole runs

No hold is lost and none is released against a cause to pause, in every run without the events that break this; the
reasons of the pauses are truthful in exactly those runs.
-/

namespace AllInSafe.Pause
open AllInSafe.Library

/-- An active Wi-Fi network, for the runs below. -/
def wifi : NetworkInfo := ⟨1, .connected, some "home"⟩

/-! ## Holds -/

/-- In every run without an event that loses a hold, a waiting hold that should be released has its release
pending in every state that the run reaches. -/
theorem hold_release_pending {es : List Event} {s : Session} (hgood : session.StepsMeet KeepsHold session.init es)
    (hrun : session.runFrom session.init es = some s) : NoLostHold s :=
  hgood.invariant (fun _ _ _ h hg hs => NoLostHold.step h hg hs) (by intro hw; cases hw) hrun

/-- A hold before the registration, a pause and a resume by the user, and a hold in between. -/
def pausedRun : List Event :=
  [.accept, .hold, .construct, .register 0 {} (some wifi), .userPause 10 true, .hold, .userPause 20 false, .hold]

theorem hold_release_pending_pausedRun :
    ∃ s, session.runFrom session.init pausedRun = some s ∧ NoLostHold s := by
  have hgood : session.StepsMeet KeepsHold session.init pausedRun := by decide
  exact ⟨_, rfl, hold_release_pending hgood rfl⟩

/-- A second resume by the user, and a registration under `ignorenetstate` after the hold, both leave a hold
that should be released with no release pending. -/
theorem hold_lost :
    (∃ s, session.runFrom session.init
        [.accept, .construct, .register 0 {} (some wifi), .hold, .userPause 20 false] = some s ∧
      ¬ NoLostHold s) ∧
    (∃ s, session.runFrom session.init
        [.accept, .hold, .construct, .register 0 { ignorenetstate := true } none] = some s ∧
      ¬ NoLostHold s) := by
  refine ⟨⟨_, rfl, ?_⟩, ⟨_, rfl, ?_⟩⟩ <;> simp [NoLostHold] <;> decide

/-! ## Releases -/

/-- In every run whose network events are guarded, `hold release` is written only while the tunnel should be
connected, and never between a pause by the user and the next resume. -/
theorem release_only_connected {es : List Event} {s : Session}
    (hgood : session.StepsMeet ReleaseGuarded session.init es) (hrun : session.runFrom session.init es = some s) :
    (∀ w ∈ s.written, w.command = "hold release\n" → w.connected = true) ∧
    ∀ pre now mid t, es = pre ++ .userPause now true :: mid → (∀ t', Event.userPause t' false ∉ mid) →
      session.runFrom session.init (pre ++ [.userPause now true]) = some t →
      ∃ ws, s.written = t.written ++ ws ∧ ∀ w ∈ ws, w.command ≠ "hold release\n" := by
  refine ⟨hgood.invariant (fun _ _ _ h hg hs => ReleasedConnected.step h hg hs) (by intro w hw; cases hw) hrun, ?_⟩
  intro pre now mid t hes hmid ht
  rw [show pre ++ Event.userPause now true :: mid = (pre ++ [.userPause now true]) ++ mid by simp] at hes
  subst hes
  obtain ⟨t', ht', hrest⟩ := Machine.runFrom_append.mp hrun
  obtain rfl : t = t' := Option.some.inj (ht.symm.trans ht')
  -- The pause itself sets `userpause`; from there on `PausedSince t` is invariant.
  obtain ⟨u, _, hlast⟩ := Machine.runFrom_append.mp ht
  obtain ⟨v, hv, hvt⟩ := Machine.runFrom_cons.mp hlast
  cases hvt
  have hstart : PausedSince t t := ⟨UserPaused.of_userPause hv, [], by simp, by simp⟩
  have hgood' := (hgood.append_right ht).and_events (P := fun e => ∀ now, e ≠ .userPause now false)
    (fun e he n hn => hmid n (hn ▸ he))
  exact (hgood'.invariant (fun _ _ _ h hg hs => PausedSince.step h hg hs) hstart hrest).2

/-- A session that is released, held, paused by the user while a hold waits, and resumed. -/
def releasedRun : List Event :=
  [.accept, .construct, .register 0 {} (some wifi), .hold, .resumeHoldExpires 10, .userPause 20 true, .hold,
    .connectivity 30 {} none, .connectivity 40 {} (some ⟨0, .connected, none⟩), .screenOn 50]

theorem release_only_connected_releasedRun :
    ∃ s t ws, session.runFrom session.init releasedRun = some s ∧
      session.runFrom session.init (releasedRun.take 6) = some t ∧
      ⟨"hold release\n", true⟩ ∈ s.written ∧ s.written = t.written ++ ws ∧
      ∀ w ∈ ws, w.command ≠ "hold release\n" := by
  have hgood : session.StepsMeet ReleaseGuarded session.init releasedRun := by decide
  obtain ⟨ws, hws⟩ := (release_only_connected hgood rfl).2
    (releasedRun.take 5) 20 (releasedRun.drop 6) _ rfl (by intro t' h; simp [releasedRun] at h) rfl
  exact ⟨_, _, ws, rfl, rfl, by decide, hws.1, hws.2⟩

/-- The user pauses a held session, the network is lost and the same network returns within the disconnect
delay: the hold is released. -/
theorem release_while_paused :
    ∃ s, session.runFrom session.init
        [.accept, .construct, .register 0 {} (some wifi), .userPause 10 true, .hold, .connectivity 20 {} none,
          .connectivity 30 {} (some wifi)] = some s ∧
      ⟨"hold release\n", false⟩ ∈ s.written ∧ s.receiver.userpause = .disconnected ∧
      s.receiver.shouldBeConnected = false :=
  ⟨_, rfl, by decide, rfl, rfl⟩

/-! ## Reasons -/

/-- In a run of the receiver every pause names a cause that is off, and is called while the tunnel should not be
connected, exactly when every event of the run meets `PausesTruthfully`. -/
theorem pause_truthful_iff {es : List Event} {s : Watched} (hrun : watched.runFrom watched.init es = some s) :
    (∀ m ∈ s.calls, m.Truthful) ↔ watched.StepsMeet PausesTruthfully watched.init es := by
  have hstep : ∀ s e s', NeverPending s.receiver → watched.step s e = some s' →
      NeverPending s'.receiver ∧ ((∀ m ∈ s'.calls, m.Truthful) ↔
        (∀ m ∈ s.calls, m.Truthful) ∧ PausesTruthfully s e) := by
    intro s e s' hpending hs
    obtain ⟨hreceiver, hcalls⟩ := Watched.step_eq hs
    rw [hreceiver, hcalls, truthfulCall_handle hpending hs]
    exact ⟨hpending.handle e, Iff.rfl⟩
  have hinit : NeverPending watched.init.receiver := by simp [NeverPending, watched]
  have hempty : ∀ m ∈ watched.init.calls, m.Truthful := by simp [watched]
  rw [Machine.meets_iff hstep hinit hrun]
  exact and_iff_right hempty

/-- A pause and a resume by the user, a lost network and a switched off screen. -/
def truthfulRun : List Event :=
  [.connectivity 0 {} (some wifi), .userPause 10 true, .userPause 20 false, .connectivity 30 {} none,
    .delayDisconnectExpires, .screenOff 40 { screenoff := true }, .screenOn 50]

theorem pause_truthful_iff_truthfulRun :
    ∃ s, watched.runFrom watched.init truthfulRun = some s ∧ s.calls.length = 5 ∧ ∀ m ∈ s.calls, m.Truthful := by
  have hgood : watched.StepsMeet PausesTruthfully watched.init truthfulRun := by decide
  exact ⟨_, rfl, rfl, (pause_truthful_iff rfl).mpr hgood⟩

/-- A resume by the user of a running session, and a screen that is switched on while a lost network is waited for,
both call for a pause by the user that there is none of. -/
theorem pause_untruthful :
    (∃ s, watched.runFrom watched.init [.connectivity 0 {} (some wifi), .userPause 10 false] = some s ∧
      ∃ m ∈ s.calls, m.call = .pause .userPause ∧ m.receiver.shouldBeConnected = true) ∧
    (∃ s, watched.runFrom watched.init
        [.connectivity 0 {} (some wifi), .connectivity 10 {} none, .screenOn 20] = some s ∧
      ∃ m ∈ s.calls, m.call = .pause .userPause ∧ m.receiver.userpause = .shouldBeConnected) := by
  refine ⟨⟨_, rfl, ?_⟩, ⟨_, rfl, ?_⟩⟩ <;> decide

end AllInSafe.Pause
