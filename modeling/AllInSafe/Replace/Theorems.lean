import AllInSafe.Replace.Lemmas.Ordered

/-!
# Replacing a session over whole runs

The last session keeps what its set-up has recorded, as long as the end of an older session runs in time.
-/

namespace AllInSafe.Replace
open AllInSafe.Library

/-- Until it begins to end by itself, the last session keeps its recorded profile, its process thread and its
receiver, and no call of `stopSelf` has met a live session. -/
structure KeepsSuccessor (s : Service) : Prop where
  lastConnectedProfile : s.ended = false → s.last ≠ 0 → s.setup ≠ .setConnectedVpnProfile →
    s.lastConnectedProfile = some s.last
  mProcessThread : s.ended = false → s.threads s.last = .running → s.mProcessThread = some s.last
  mDeviceStateReceiver : s.ended = false → s.last ≠ 0 → s.setup = .idle → s.posted = [] →
    s.mDeviceStateReceiver = some s.last ∧ s.last ∈ s.registered
  stopped : ∀ p ∈ s.stopped, p = none

/-- The statement of `endVpnService` comes before the statement of the last set-up that it would undo. -/
def EndStep.inTime (s : Service) : EndStep → Bool
  | .processThread => s.threads s.last = .absent
  | .unregister | .deviceStateReceiver => s.setup ≠ .idle || s.posted ≠ []
  | .disconnected => s.setup = .setConnectedVpnProfile
  | .openVPNThread => true
  | .stop => s.mStarting || s.mNotificationAlwaysVisible

/-- A statement at the end of a thread comes in time for the last session, or that one ends as well. -/
def EndsInTime (s : Service) : Event → Bool
  | .run a =>
      match s.threads a with
      | .ending e => s.ended || e.inTime s
      | .absent | .running | .exited => true
  | .startOpenVPN _ | .gui => true

namespace KeepsSuccessor

variable {s : Service}

theorem of_ended (he : s.ended = true) (hstopped : ∀ p ∈ s.stopped, p = none) : KeepsSuccessor s where
  lastConnectedProfile hn := by rw [he] at hn; cases hn
  mProcessThread hn := by rw [he] at hn; cases hn
  mDeviceStateReceiver hn := by rw [he] at hn; cases hn
  stopped := hstopped

theorem ended_of_failed (h : s.failed = true) : s.ended = true := by
  rw [Service.ended, h, Bool.true_or]

/-- The service is not stopped while a session starts or the notification stays. -/
theorem endVpnService_stop (h : EndStep.stop.inTime s = true) : s.endVpnService .stop = s := by
  have hbusy : (!s.mStarting && !s.mNotificationAlwaysVisible) = false := by
    rw [← Bool.not_or]
    exact congrArg not h
  rw [Service.endVpnService, hbusy]
  rfl

theorem stopped_endVpnService (h : ∀ p ∈ s.stopped, p = none) {e : EndStep} (he : s.ended = true) :
    ∀ p ∈ (s.endVpnService e).stopped, p = none := by
  cases e with
  | unregister =>
      simp only [Service.endVpnService, Service.unregisterDeviceStateReceiver]
      split <;> exact h
  | stop =>
      simp only [Service.endVpnService, he]
      split
      · exact List.forall_mem_append.mpr ⟨h, by simp⟩
      · exact h
  | processThread => exact h
  | deviceStateReceiver => exact h
  | disconnected => exact h
  | openVPNThread => exact h

/-- The set-up goes on, after it has recorded the profile and before it posts the receiver. -/
theorem setUp (h : KeepsSuccessor s) {t : Setup} (hs : s.setup ≠ .setConnectedVpnProfile) (ht : t ≠ .idle) :
    KeepsSuccessor { s with setup := t } :=
  { h with
    lastConnectedProfile := fun he hl _ => h.lastConnectedProfile he hl hs
    mDeviceStateReceiver := fun _ _ hi => absurd hi ht }

theorem startOpenVPN (h : KeepsSuccessor s) (ho : Ordered s) (ok : Bool) : KeepsSuccessor (s.startOpenVPN ok) := by
  cases hs : s.setup with
  | idle =>
      rw [Service.startOpenVPN, hs]
      exact {
        lastConnectedProfile := fun _ _ hn => absurd rfl hn
        mProcessThread := fun _ hr => by
          have hfresh : s.threads (s.last + 1) = .absent := ho.fresh _ (Nat.lt_succ_self _)
          rw [hfresh] at hr
          cases hr
        mDeviceStateReceiver := fun _ _ hi => by cases hi
        stopped := h.stopped }
  | setConnectedVpnProfile =>
      rw [Service.startOpenVPN, hs]
      exact { h with
        lastConnectedProfile := fun _ _ _ => rfl
        mDeviceStateReceiver := fun _ _ hi => by cases hi }
  | setStarting =>
      rw [Service.startOpenVPN, hs]
      exact { h.setUp (t := .setReplaceConnection) (by simp [hs]) (by simp) with }
  | setReplaceConnection =>
      have hset := h.setUp (t := .forceStopOpenVpnProcess) (by simp [hs]) (by simp)
      rw [Service.startOpenVPN, hs]
      dsimp only
      split
      · exact { hset with }
      · exact hset
  | forceStopOpenVpnProcess =>
      rw [Service.startOpenVPN, hs]
      exact h.setUp (by simp [hs]) (by simp)
  | clearStarting =>
      rw [Service.startOpenVPN, hs]
      exact { h.setUp (t := .openManagementInterface) (by simp [hs]) (by simp) with }
  | openManagementInterface =>
      rw [Service.startOpenVPN, hs]
      dsimp only
      split
      · exact { h.setUp (t := .startProcessThread) (by simp [hs]) (by simp) with }
      · exact of_ended (ended_of_failed rfl) h.stopped
  | startProcessThread =>
      have habsent : s.threads s.last = .absent := ho.beforeThread (by rw [hs]; rfl)
      have hended : s.ended = s.failed := by rw [Service.ended, habsent, Bool.or_false]
      rw [Service.startOpenVPN, hs]
      refine { h with
        lastConnectedProfile := fun he hl _ => h.lastConnectedProfile ?_ hl (by simp [hs])
        mProcessThread := fun _ _ => rfl
        mDeviceStateReceiver := fun _ _ hi => by cases hi }
      rw [hended]
      exact (Bool.or_eq_false_iff.mp he).1
  | writeConfigFileOutput =>
      rw [Service.startOpenVPN, hs]
      dsimp only
      split
      · exact h.setUp (by simp [hs]) (by simp)
      · exact of_ended (ended_of_failed rfl) h.stopped
  | postReceiver =>
      rw [Service.startOpenVPN, hs]
      exact { h with
        lastConnectedProfile := fun he hl _ => h.lastConnectedProfile he hl (by simp [hs])
        mDeviceStateReceiver := fun _ _ _ hp => by simp at hp }
  | endVpnService e =>
      have hfailed : s.failed = true := ho.failing e hs
      rw [Service.startOpenVPN, hs]
      refine of_ended (ended_of_failed ?_) (stopped_endVpnService h.stopped (ended_of_failed hfailed))
      exact (s.endVpnService_failed e).trans hfailed

/-- A statement of `endVpnService` in time leaves alone what belongs to the last session. -/
theorem endVpnService (h : KeepsSuccessor s) {e : EndStep} (he : e.inTime s = true) :
    KeepsSuccessor (s.endVpnService e) := by
  have hreceiver : (s.setup ≠ .idle || s.posted ≠ []) = true → s.setup = .idle → s.posted ≠ [] := by
    intro hor hi
    simpa [hi] using hor
  cases e with
  | processThread =>
      rw [EndStep.inTime, decide_eq_true_eq] at he
      refine { h with mProcessThread := fun _ hr => ?_ }
      have hrunning : s.threads s.last = .running := hr
      rw [he] at hrunning
      cases hrunning
  | unregister =>
      rw [Service.endVpnService, Service.unregisterDeviceStateReceiver]
      split
      · exact { h with mDeviceStateReceiver := fun _ _ hi hp => absurd hp (hreceiver he hi) }
      · exact h
  | deviceStateReceiver => exact { h with mDeviceStateReceiver := fun _ _ hi hp => absurd hp (hreceiver he hi) }
  | disconnected =>
      rw [EndStep.inTime, decide_eq_true_eq] at he
      exact { h with lastConnectedProfile := fun _ _ hs => absurd he hs }
  | openVPNThread => exact { h with }
  | stop => rw [endVpnService_stop he]; exact h

theorem setThread_of_ne (h : KeepsSuccessor s) {a : Nat} {t : Thread} (ha : s.last ≠ a) :
    KeepsSuccessor (s.setThread a t) := by
  have hlast : (s.setThread a t).threads s.last = s.threads s.last := if_neg ha
  have hended : (s.setThread a t).ended = s.ended := by
    rw [Service.ended, Service.ended, ← hlast]
    rfl
  exact {
    lastConnectedProfile := fun he => h.lastConnectedProfile (hended ▸ he)
    mProcessThread := fun he hr => h.mProcessThread (hended ▸ he) (hlast ▸ hr)
    mDeviceStateReceiver := fun he => h.mDeviceStateReceiver (hended ▸ he)
    stopped := h.stopped }

/-- A thread at its end leaves the last session alone, or is its own one. -/
theorem setThread (h : KeepsSuccessor s) {a : Nat} {t : Thread} (ht : t = .exited ∨ ∃ e, t = .ending e) :
    KeepsSuccessor (s.setThread a t) := by
  by_cases ha : s.last = a
  · refine of_ended ?_ h.stopped
    have hthread : (s.setThread a t).threads s.last = t := if_pos ha
    rw [Service.ended, show (s.setThread a t).last = s.last from rfl, hthread]
    rcases ht with rfl | ⟨e, rfl⟩ <;> exact Bool.or_true _
  · exact h.setThread_of_ne ha

theorem run {s' : Service} {a : Nat} (h : KeepsSuccessor s) (hgood : EndsInTime s (.run a) = true)
    (hs : s.run a = some s') : KeepsSuccessor s' := by
  cases ha : s.threads a with
  | absent => rw [Service.run, ha] at hs; cases hs
  | exited => rw [Service.run, ha] at hs; cases hs
  | running =>
      rw [Service.run, ha] at hs
      cases hs
      apply h.setThread
      split
      · exact .inl rfl
      · exact .inr ⟨_, rfl⟩
  | ending e =>
      rw [EndsInTime, ha, Bool.or_eq_true] at hgood
      have hkeep : KeepsSuccessor (s.endVpnService e) := by
        rcases hgood with he | he
        · refine of_ended ?_ (stopped_endVpnService h.stopped he)
          rw [Service.ended, Service.endVpnService_failed, Service.endVpnService_threads, Service.endVpnService_last]
          exact he
        · exact h.endVpnService he
      rw [Service.run, ha] at hs
      cases hs
      apply hkeep.setThread
      cases e.next with
      | none => exact .inl rfl
      | some e' => exact .inr ⟨e', rfl⟩

theorem gui {s' : Service} (h : KeepsSuccessor s) (ho : Ordered s) (hs : s.gui = some s') : KeepsSuccessor s' := by
  cases hp : s.posted with
  | nil => rw [Service.gui, hp] at hs; cases hs
  | cons p ps =>
      rw [Service.gui, hp] at hs
      cases hn : p.next with
      | unregisterOld =>
          have hnext : KeepsSuccessor { s with posted := { p with next := .register } :: ps } :=
            { h with mDeviceStateReceiver := fun _ _ _ hnil => by cases hnil }
          simp only [hn, Option.some.injEq] at hs
          subst hs
          split
          · exact hnext
          · rw [Service.unregisterDeviceStateReceiver]
            split
            · exact { hnext with mDeviceStateReceiver := fun _ _ _ hnil => by cases hnil }
            · exact hnext
      | register =>
          simp only [hn, Option.some.injEq] at hs
          subst hs
          exact { h with mDeviceStateReceiver := fun _ _ _ hnil => by cases hnil }
      | assign =>
          simp only [hn, Option.some.injEq] at hs
          subst hs
          refine { h with mDeviceStateReceiver := fun he _ hi hnil => ?_ }
          have hlast : p.new = s.last := by
            refine ho.posted_last hi (Bool.or_eq_false_iff.mp he).1 p ?_
            rw [hp, show ps = [] from hnil]
            rfl
          have hreg : p.new ∈ s.registered := ho.registered p (hp ▸ List.mem_cons_self) hn
          rw [hlast] at hreg
          exact ⟨congrArg some hlast, hreg⟩

theorem step {s' : Service} {e : Event} (h : KeepsSuccessor s) (ho : Ordered s) (hgood : EndsInTime s e = true)
    (hs : s.step e = some s') : KeepsSuccessor s' := by
  cases e with
  | startOpenVPN ok => cases hs; exact h.startOpenVPN ho ok
  | run a => exact h.run hgood hs
  | gui => exact h.gui ho hs

end KeepsSuccessor


/-! ## Whole runs -/

/-- In every run in which the ends of replaced sessions come in time, the last session keeps its process thread,
its receiver and its recorded profile until it ends by itself, and no end stops the service under it. -/
theorem successor_keeps {mNotificationAlwaysVisible : Bool} {es : List Event} {s : Service}
    (hgood : (service mNotificationAlwaysVisible).StepsMeet (fun s e => EndsInTime s e = true)
      (service mNotificationAlwaysVisible).init es)
    (hrun : (service mNotificationAlwaysVisible).runFrom (service mNotificationAlwaysVisible).init es = some s) :
    KeepsSuccessor s := by
  have hinit : Ordered (service mNotificationAlwaysVisible).init ∧
      KeepsSuccessor (service mNotificationAlwaysVisible).init := by
    refine ⟨?_, ?_⟩
    · constructor <;> simp [service, Setup.beforeThread]
    · constructor <;> simp [service]
  exact (hgood.invariant (I := fun s => Ordered s ∧ KeepsSuccessor s)
    (fun _ _ _ h hg hs => ⟨h.1.step hs, h.2.step h.1 hg hs⟩) hinit hrun).2

/-- The calls of `startOpenVPN` up to its end and the registration of the receiver. -/
def wholeSetup : List Event :=
  List.replicate 10 (.startOpenVPN true) ++ List.replicate 3 .gui

/-- The first session ends while the second one stops it, up to the last statement before the profile of the second
one is recorded. -/
def replacedRun : List Event :=
  wholeSetup ++ [.startOpenVPN true] ++ List.replicate 6 (.run 1) ++ List.replicate 2 (.startOpenVPN true) ++
    [.run 1] ++ wholeSetup.drop 3

theorem successor_keeps_replacedRun :
    ∃ s, (service false).runFrom (service false).init replacedRun = some s ∧ KeepsSuccessor s ∧ s.last = 2 ∧
      s.ended = false ∧ s.threads 1 = .exited := by
  have hgood : (service false).StepsMeet (fun s e => EndsInTime s e = true) (service false).init replacedRun := by
    decide
  exact ⟨_, rfl, successor_keeps hgood rfl, rfl, rfl, rfl⟩

/-- The first session ends right after the second one has been set up: it takes the thread, the receiver and the
profile of the second session with it and stops the service. -/
theorem successor_lost :
    ∃ s, (service false).runFrom (service false).init (wholeSetup ++ wholeSetup ++ List.replicate 7 (.run 1)) =
        some s ∧
      s.last = 2 ∧ s.ended = false ∧ s.threads 2 = .running ∧ s.mProcessThread = none ∧
      s.mDeviceStateReceiver = none ∧ s.registered = [] ∧ s.lastConnectedProfile = none ∧ s.stopped = [some 2] :=
  ⟨_, rfl, rfl, rfl, rfl, rfl, rfl, rfl, rfl, rfl⟩

end AllInSafe.Replace
