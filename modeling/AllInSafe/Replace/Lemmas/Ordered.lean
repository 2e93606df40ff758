import AllInSafe.Replace.Model
import Mathlib.Tactic.Common

/-!
# The order of the sessions

The receivers are assigned in the order of their sessions, and nothing belongs to a session to come.
-/

namespace AllInSafe.Replace
open AllInSafe.Library

/-- The process thread of the last session has not been started yet. -/
def Setup.beforeThread : Setup → Bool
  | .setConnectedVpnProfile | .setStarting | .setReplaceConnection | .forceStopOpenVpnProcess | .clearStarting
  | .openManagementInterface | .startProcessThread => true
  | .idle | .writeConfigFileOutput | .postReceiver | .endVpnService _ => false

structure Ordered (s : Service) : Prop where
  fresh : ∀ n, s.last < n → s.threads n = .absent
  beforeThread : s.setup.beforeThread = true → s.threads s.last = .absent
  failing : ∀ e, s.setup = .endVpnService e → s.failed = true
  failed : s.failed = true → s.setup = .idle ∨ ∃ e, s.setup = .endVpnService e
  sorted : s.posted.Pairwise fun p q => p.new < q.new
  posted_le : ∀ p ∈ s.posted, p.new ≤ s.last
  assigned_lt : ∀ r ∈ s.mDeviceStateReceiver, r ≤ s.last ∧ ∀ p ∈ s.posted, r < p.new
  unposted : s.setup ≠ .idle ∨ s.failed = true →
    (∀ p ∈ s.posted, p.new < s.last) ∧ ∀ r ∈ s.mDeviceStateReceiver, r < s.last
  posted_last : s.setup = .idle → s.failed = false → ∀ p ∈ s.posted.getLast?, p.new = s.last
  registered : ∀ p ∈ s.posted, p.next = .assign → p.new ∈ s.registered
  old_lt : ∀ p ∈ s.posted, ∀ r ∈ p.oldDeviceStateReceiver, r < p.new

/-! ## What the end of a session leaves alone -/

namespace Service

variable (s : Service) (e : EndStep)

@[simp] theorem endVpnService_setup : (s.endVpnService e).setup = s.setup := by
  cases e <;> simp only [Service.endVpnService, unregisterDeviceStateReceiver] <;> split <;> rfl

@[simp] theorem endVpnService_threads : (s.endVpnService e).threads = s.threads := by
  cases e <;> simp only [Service.endVpnService, unregisterDeviceStateReceiver] <;> split <;> rfl

@[simp] theorem endVpnService_last : (s.endVpnService e).last = s.last := by
  cases e <;> simp only [Service.endVpnService, unregisterDeviceStateReceiver] <;> split <;> rfl

@[simp] theorem endVpnService_failed : (s.endVpnService e).failed = s.failed := by
  cases e <;> simp only [Service.endVpnService, unregisterDeviceStateReceiver] <;> split <;> rfl

@[simp] theorem endVpnService_posted : (s.endVpnService e).posted = s.posted := by
  cases e <;> simp only [Service.endVpnService, unregisterDeviceStateReceiver] <;> split <;> rfl

end Service

/-! ## Every statement keeps the order -/

namespace Ordered

variable {s : Service}

theorem endVpnService (h : Ordered s) (e : EndStep) : Ordered (s.endVpnService e) := by
  cases e with
  | processThread => exact { h with }
  | disconnected => exact { h with }
  | openVPNThread => exact { h with }
  | stop =>
      simp only [Service.endVpnService]
      split
      · exact { h with }
      · exact h
  | deviceStateReceiver =>
      exact { h with
        assigned_lt := fun _ hr => by cases hr
        unposted := fun hu => ⟨(h.unposted hu).1, fun _ hr => by cases hr⟩ }
  | unregister =>
      simp only [Service.endVpnService, Service.unregisterDeviceStateReceiver]
      split
      · refine { h with registered := fun p hp hn => ?_ }
        -- The receiver of a runnable that still waits is not the one in the field.
        refine List.mem_filter.mpr ⟨h.registered p hp hn, ?_⟩
        rw [decide_eq_true_eq]
        exact fun he => Nat.lt_irrefl _ ((h.assigned_lt p.new he.symm).2 p hp)
      · exact h

theorem setThread (h : Ordered s) {a : Nat} {t : Thread} (ha : a ≤ s.last)
    (hb : a = s.last → s.setup.beforeThread = false) : Ordered (s.setThread a t) := by
  refine { h with fresh := fun n hn => ?_, beforeThread := fun hs => ?_ }
  · have hne : n ≠ a := by simp only [Service.setThread] at hn; omega
    simp only [Service.setThread, if_neg hne]
    exact h.fresh n hn
  · have hne : s.last ≠ a := by
      intro he
      rw [Service.setThread, hb he.symm] at hs
      cases hs
    simp only [Service.setThread, if_neg hne]
    exact h.beforeThread hs

/-- A statement of the set-up that only moves on. -/
theorem setSetup (h : Ordered s) {t : Setup} (hidle : s.setup ≠ .idle) (ht : t ≠ .idle)
    (hb : t.beforeThread = true → s.setup.beforeThread = true)
    (hf : (∃ e, t = .endVpnService e) ↔ ∃ e, s.setup = .endVpnService e) : Ordered { s with setup := t } :=
  { h with
    beforeThread := fun hs => h.beforeThread (hb hs)
    failing := fun e he => by obtain ⟨e', he'⟩ := hf.mp ⟨e, he⟩; exact h.failing e' he'
    failed := fun hs => .inr (hf.mpr ((h.failed hs).resolve_left hidle))
    unposted := fun _ => h.unposted (.inl hidle)
    posted_last := fun hs => absurd hs ht }

theorem begin (h : Ordered s) :
    Ordered { s with last := s.last + 1, setup := .setConnectedVpnProfile, failed := false } where
  fresh n hn := h.fresh n (Nat.lt_of_succ_lt hn)
  beforeThread _ := h.fresh _ (Nat.lt_succ_self _)
  failing _ he := by cases he
  failed hf := by cases hf
  sorted := h.sorted
  posted_le p hp := Nat.le_succ_of_le (h.posted_le p hp)
  assigned_lt r hr := ⟨Nat.le_succ_of_le (h.assigned_lt r hr).1, (h.assigned_lt r hr).2⟩
  unposted _ := ⟨fun p hp => Nat.lt_succ_of_le (h.posted_le p hp),
    fun r hr => Nat.lt_succ_of_le (h.assigned_lt r hr).1⟩
  posted_last he := by cases he
  registered := h.registered
  old_lt := h.old_lt

theorem postReceiver (h : Ordered s) (hs : s.setup = .postReceiver) :
    Ordered { s with posted := s.posted ++ [⟨s.mDeviceStateReceiver, s.last, .unregisterOld⟩], setup := .idle } := by
  have hidle : s.setup ≠ .idle := by rw [hs]; decide
  obtain ⟨hp, hr⟩ := h.unposted (.inl hidle)
  refine { h with
    beforeThread := fun hb => by cases hb
    failing := fun _ he => by cases he
    sorted := ?_
    posted_le := ?_
    assigned_lt := ?_
    unposted := ?_
    failed := fun _ => .inl rfl
    posted_last := ?_
    registered := ?_
    old_lt := ?_ }
  · refine List.pairwise_append.mpr ⟨h.sorted, List.pairwise_singleton _ _, fun p hp' q hq => ?_⟩
    rw [List.mem_singleton.mp hq]
    exact hp p hp'
  · rw [List.forall_mem_append]
    exact ⟨h.posted_le, by simp⟩
  · intro r hr'
    refine ⟨(h.assigned_lt r hr').1, ?_⟩
    rw [List.forall_mem_append]
    exact ⟨(h.assigned_lt r hr').2, by simpa using hr r hr'⟩
  · intro hu
    have hf : s.failed = true := hu.resolve_left fun hn => hn rfl
    rcases h.failed hf with he | ⟨e, he⟩ <;> rw [hs] at he <;> cases he
  · intro _ _ p hp
    rw [List.getLast?_concat, Option.mem_some_iff] at hp
    rw [← hp]
  · rw [List.forall_mem_append]
    exact ⟨h.registered, by simp⟩
  · rw [List.forall_mem_append]
    exact ⟨h.old_lt, by simpa using hr⟩

/-- The set-up fails, or the end after a failed set-up goes on. -/
theorem fail (h : Ordered s) (hidle : s.setup ≠ .idle) {t : Setup} (ht : t = .idle ∨ ∃ e, t = .endVpnService e)
    {f : Bool} (hf : f = true) : Ordered { s with setup := t, failed := f } :=
  { h with
    beforeThread := fun hb => by rcases ht with rfl | ⟨e, rfl⟩ <;> cases hb
    failing := fun _ _ => hf
    failed := fun _ => ht
    unposted := fun _ => h.unposted (.inl hidle)
    posted_last := fun _ hn => by rw [hf] at hn; cases hn }

/-- The set-up before its last statement, where no end is in sight. -/
theorem setUp (h : Ordered s) (t : Setup) (hidle : s.setup ≠ .idle) (hend : ∀ e, s.setup ≠ .endVpnService e)
    (ht : t ≠ .idle ∧ ∀ e, t ≠ .endVpnService e) (hb : t.beforeThread = true → s.setup.beforeThread = true) :
    Ordered { s with setup := t } :=
  h.setSetup hidle ht.1 hb
    ⟨fun ⟨e, he⟩ => absurd he (ht.2 e), fun ⟨e, he⟩ => absurd he (hend e)⟩

theorem startOpenVPN (h : Ordered s) (ok : Bool) : Ordered (s.startOpenVPN ok) := by
  cases hs : s.setup with
  | idle => rw [Service.startOpenVPN, hs]; exact h.begin
  | setConnectedVpnProfile =>
      rw [Service.startOpenVPN, hs]
      exact { h.setUp .setStarting (by simp [hs]) (by simp [hs]) (by simp) (by simp [hs, Setup.beforeThread]) with }
  | setStarting =>
      rw [Service.startOpenVPN, hs]
      exact { h.setUp .setReplaceConnection (by simp [hs]) (by simp [hs]) (by simp)
        (by simp [hs, Setup.beforeThread]) with }
  | setReplaceConnection =>
      have hset := h.setUp .forceStopOpenVpnProcess (by simp [hs]) (by simp [hs]) (by simp)
        (by simp [hs, Setup.beforeThread])
      rw [Service.startOpenVPN, hs]
      dsimp only
      split
      · exact { hset with }
      · exact hset
  | forceStopOpenVpnProcess =>
      rw [Service.startOpenVPN, hs]
      exact h.setUp .clearStarting (by simp [hs]) (by simp [hs]) (by simp) (by simp [hs, Setup.beforeThread])
  | clearStarting =>
      rw [Service.startOpenVPN, hs]
      exact { h.setUp .openManagementInterface (by simp [hs]) (by simp [hs]) (by simp)
        (by simp [hs, Setup.beforeThread]) with }
  | openManagementInterface =>
      rw [Service.startOpenVPN, hs]
      dsimp only
      split
      · exact { h.setUp .startProcessThread (by simp [hs]) (by simp [hs]) (by simp)
          (by simp [hs, Setup.beforeThread]) with }
      · exact h.fail (by simp [hs]) (.inr ⟨_, rfl⟩) rfl
  | startProcessThread =>
      have hset := h.setUp .writeConfigFileOutput (by simp [hs]) (by simp [hs]) (by simp) (by simp [Setup.beforeThread])
      rw [Service.startOpenVPN, hs]
      exact { hset.setThread (t := .running) (Nat.le_refl s.last) (fun _ => rfl) with }
  | writeConfigFileOutput =>
      rw [Service.startOpenVPN, hs]
      dsimp only
      split
      · exact h.setUp .postReceiver (by simp [hs]) (by simp [hs]) (by simp) (by simp [Setup.beforeThread])
      · exact h.fail (by simp [hs]) (.inr ⟨_, rfl⟩) rfl
  | postReceiver => rw [Service.startOpenVPN, hs]; exact h.postReceiver hs
  | endVpnService e =>
      have hfailed : (s.endVpnService e).failed = true := by rw [Service.endVpnService_failed]; exact h.failing e hs
      have hidle : (s.endVpnService e).setup ≠ .idle := by simp [hs]
      rw [Service.startOpenVPN, hs]
      refine (h.endVpnService e).fail hidle ?_ hfailed
      cases e.next with
      | none => exact .inl rfl
      | some e' => exact .inr ⟨e', rfl⟩

theorem run {s' : Service} (h : Ordered s) {a : Nat} (hs : s.run a = some s') : Ordered s' := by
  have hset : ∀ {t : Service}, Ordered t → t.setup = s.setup → t.threads = s.threads → t.last = s.last →
      ∀ th : Thread, s.threads a ≠ .absent → Ordered (t.setThread a th) := by
    intro t ht hsetup hthreads hlast th ha
    refine ht.setThread (Nat.not_lt.mp fun hl => ha ?_) ?_
    · rw [← hthreads]
      exact ht.fresh a hl
    · rintro rfl
      cases hb : t.setup.beforeThread with
      | true => exact absurd (hthreads ▸ ht.beforeThread hb) ha
      | false => rfl
  cases ha : s.threads a with
  | absent => rw [Service.run, ha] at hs; cases hs
  | exited => rw [Service.run, ha] at hs; cases hs
  | running => rw [Service.run, ha] at hs; cases hs; exact hset h rfl rfl rfl _ (by simp [ha])
  | ending e =>
      rw [Service.run, ha] at hs
      cases hs
      exact hset (h.endVpnService e) (s.endVpnService_setup e) (s.endVpnService_threads e) (s.endVpnService_last e) _
        (by simp [ha])

/-- The first runnable that waits goes on to its next statement. -/
theorem proceed (h : Ordered s) {p : Posted} {ps : List Posted} (hp : s.posted = p :: ps) {n : GuiStep}
    {rs : List Nat} (hsub : s.registered ⊆ rs) (hn : n = .assign → p.new ∈ rs) :
    Ordered { s with posted := { p with next := n } :: ps, registered := rs } := by
  have hnew : ∀ P : Nat → Prop, (∀ q ∈ p :: ps, P q.new) → ∀ q ∈ { p with next := n } :: ps, P q.new :=
    fun P hP => List.forall_mem_cons.mpr (List.forall_mem_cons.mp hP)
  refine { h with
    sorted := ?_
    posted_le := hnew (· ≤ s.last) (hp ▸ h.posted_le)
    assigned_lt := fun r hr => ⟨(h.assigned_lt r hr).1, hnew (r < ·) (hp ▸ (h.assigned_lt r hr).2)⟩
    unposted := fun hu => ⟨hnew (· < s.last) (hp ▸ (h.unposted hu).1), (h.unposted hu).2⟩
    posted_last := fun hi hf => ?_
    registered := ?_
    old_lt := ?_ }
  · have hsorted := h.sorted
    rw [hp] at hsorted
    exact List.pairwise_cons.mpr (List.pairwise_cons.mp hsorted)
  · have hlast := h.posted_last hi hf
    rw [hp] at hlast
    cases ps with
    | nil => simpa using hlast
    | cons q qs => exact hlast
  · have hreg := h.registered
    rw [hp] at hreg
    exact List.forall_mem_cons.mpr ⟨hn, fun q hq hqn => hsub ((List.forall_mem_cons.mp hreg).2 q hq hqn)⟩
  · have hold := h.old_lt
    rw [hp] at hold
    exact List.forall_mem_cons.mpr (List.forall_mem_cons.mp hold)

/-- The first runnable that waits is done. -/
theorem assign (h : Ordered s) {p : Posted} {ps : List Posted} (hp : s.posted = p :: ps) :
    Ordered { s with posted := ps, mDeviceStateReceiver := some p.new } := by
  have hmem : ∀ q ∈ ps, q ∈ s.posted := fun q hq => hp ▸ List.mem_cons_of_mem p hq
  have hsorted := h.sorted
  rw [hp] at hsorted
  have hhead : p ∈ s.posted := hp ▸ List.mem_cons_self
  refine { h with
    sorted := (List.pairwise_cons.mp hsorted).2
    posted_le := fun q hq => h.posted_le q (hmem q hq)
    assigned_lt := fun r hr => ?_
    unposted := fun hu => ⟨fun q hq => (h.unposted hu).1 q (hmem q hq), fun r hr => ?_⟩
    posted_last := fun hi hf q hq => ?_
    registered := fun q hq => h.registered q (hmem q hq)
    old_lt := fun q hq => h.old_lt q (hmem q hq) }
  · cases hr
    exact ⟨h.posted_le p hhead, (List.pairwise_cons.mp hsorted).1⟩
  · cases hr
    exact (h.unposted hu).1 p hhead
  · refine h.posted_last hi hf q ?_
    rw [hp]
    cases ps with
    | nil => cases hq
    | cons r rs => exact hq

theorem unregister (h : Ordered s) {r : Nat} (hr : ∀ p ∈ s.posted, r < p.new) :
    Ordered (s.unregisterDeviceStateReceiver (some r)) := by
  rw [Service.unregisterDeviceStateReceiver]
  split
  · refine { h with registered := fun p hp hn => List.mem_filter.mpr ⟨h.registered p hp hn, ?_⟩ }
    rw [decide_eq_true_eq]
    exact fun he => Nat.lt_irrefl _ (Option.some_inj.mp he ▸ hr p hp)
  · exact h

theorem gui {s' : Service} (h : Ordered s) (hs : s.gui = some s') : Ordered s' := by
  cases hp : s.posted with
  | nil => rw [Service.gui, hp] at hs; cases hs
  | cons p ps =>
      have hhead : p ∈ s.posted := hp ▸ List.mem_cons_self
      cases hn : p.next with
      | unregisterOld =>
          have hnext := h.proceed hp (n := .register) (List.Subset.refl s.registered) (by simp)
          rw [Service.gui, hp] at hs
          simp only [hn, Option.some.injEq] at hs
          subst hs
          split
          · exact hnext
          · rename_i r ho
            have hr : r < p.new := h.old_lt p hhead r ho
            refine hnext.unregister (List.forall_mem_cons.mpr ⟨hr, fun q hq => ?_⟩)
            have hsorted := h.sorted
            rw [hp] at hsorted
            exact Nat.lt_trans hr ((List.pairwise_cons.mp hsorted).1 q hq)
      | register =>
          have hnext := h.proceed hp (n := .assign)
            (List.subset_append_left s.registered [p.new]) (by simp)
          rw [Service.gui, hp] at hs
          simp only [hn, Option.some.injEq] at hs
          subst hs
          exact hnext
      | assign =>
          rw [Service.gui, hp] at hs
          simp only [hn, Option.some.injEq] at hs
          subst hs
          exact h.assign hp

theorem step {s' : Service} {e : Event} (h : Ordered s) (hs : s.step e = some s') : Ordered s' := by
  cases e with
  | startOpenVPN ok => cases hs; exact h.startOpenVPN ok
  | run a => exact h.run hs
  | gui => exact h.gui hs

end Ordered

end AllInSafe.Replace
