import AllInSafe.Management.Active
import Mathlib.Tactic.Common
import Mathlib.Data.List.Nodup

/-!
# The active management threads are exact
-/

namespace AllInSafe.Management
open AllInSafe.Library

namespace ManagementThreads

variable {s s' : ManagementThreads} {i : Nat} {broken : List Nat}

/-- The loop of the thread has started and not ended. -/
def Running (s : ManagementThreads) (i : Nat) : Prop := (s.thread i).run = .accepting ∨ (s.thread i).run = .reading

/-- The list holds every running thread once and no other, and each stop has told whether something was written. -/
structure Exact (s : ManagementThreads) : Prop where
  nodup : s.active.Nodup
  mem_active : ∀ i, i ∈ s.active ↔ s.Running i
  stops : ∀ stop ∈ s.stops, stop.result = true ↔ stop.written ≠ []

/-- No process closes its socket while it is read, and where a stop can write to an active thread at all, it can write
to the last one. -/
def LastTells (s : ManagementThreads) : ThreadEvent → Prop
  | .endOfStream _ => False
  | .stopVPN broken => ∀ i ∈ s.active, s.managmentCommand broken i = true →
      ∀ last ∈ s.active.getLast?, s.managmentCommand broken last = true
  | _ => True

instance (s : ManagementThreads) (e : ThreadEvent) : Decidable (s.LastTells e) := by
  cases e <;> simp only [LastTells] <;> infer_instance

/-! ## The loop of a stop -/

theorem closeSocket_of_ne {j : Nat} (h : j ≠ i) : (s.closeSocket i).thread j = s.thread j := by
  unfold closeSocket
  split
  · rfl
  · exact Function.update_of_ne h _ _

theorem closeSocket_run (j : Nat) : ((s.closeSocket i).thread j).run = (s.thread j).run := by
  by_cases h : j = i
  · subst h
    unfold closeSocket
    split
    · rfl
    · simp [setThread]
  · rw [closeSocket_of_ne h]

@[simp] theorem closeSocket_active : (s.closeSocket i).active = s.active := by
  unfold closeSocket
  split <;> rfl

@[simp] theorem closeSocket_stops : (s.closeSocket i).stops = s.stops := by
  unfold closeSocket
  split <;> rfl

theorem managmentCommand_closeSocket {j : Nat} (h : j ≠ i) :
    (s.closeSocket i).managmentCommand broken j = s.managmentCommand broken j := by
  simp [managmentCommand, closeSocket_of_ne h]

theorem stopLoop_cons {mt : Nat} {rest : List Nat} {sendCMD : Bool} {written : List Nat} :
    stopLoop broken (mt :: rest) sendCMD written s = stopLoop broken rest (s.managmentCommand broken mt)
      (if s.managmentCommand broken mt then written ++ [mt] else written) (s.closeSocket mt) := rfl

/-- The result is that of the last thread. -/
theorem stopLoop_result {l : List Nat} (h : l.Nodup) (sendCMD : Bool) (written : List Nat) :
    (stopLoop broken l sendCMD written s).1.result =
      (l.getLast?.map (s.managmentCommand broken)).getD sendCMD := by
  induction l generalizing s sendCMD written with
  | nil => rfl
  | cons mt rest ih =>
      obtain ⟨hmt, hrest⟩ := List.nodup_cons.mp h
      rw [stopLoop_cons, ih hrest]
      cases hlast : rest.getLast? with
      | none => simp [List.getLast?_eq_none_iff.mp hlast]
      | some last =>
          have hne : last ≠ mt := fun heq => hmt (heq ▸ List.mem_of_getLast? hlast)
          simp [List.getLast?_cons, hlast, managmentCommand_closeSocket hne]

theorem stopLoop_written {l : List Nat} (h : l.Nodup) (sendCMD : Bool) (written : List Nat) :
    (stopLoop broken l sendCMD written s).1.written = written ++ l.filter (s.managmentCommand broken) := by
  induction l generalizing s sendCMD written with
  | nil => simp [stopLoop]
  | cons mt rest ih =>
      obtain ⟨hmt, hrest⟩ := List.nodup_cons.mp h
      have hsame : rest.filter ((s.closeSocket mt).managmentCommand broken) = rest.filter (s.managmentCommand broken) :=
        List.filter_congr fun i hi => managmentCommand_closeSocket fun heq => hmt (heq ▸ hi)
      rw [stopLoop_cons, ih hrest, hsame]
      cases hsent : s.managmentCommand broken mt <;> simp [hsent]

/-- The loop only closes sockets. -/
theorem stopLoop_keeps {l : List Nat} (sendCMD : Bool) (written : List Nat) :
    (stopLoop broken l sendCMD written s).2.active = s.active ∧ (stopLoop broken l sendCMD written s).2.stops = s.stops ∧
      ∀ j, ((stopLoop broken l sendCMD written s).2.thread j).run = (s.thread j).run := by
  induction l generalizing s sendCMD written with
  | nil => exact ⟨rfl, rfl, fun _ => rfl⟩
  | cons mt rest ih =>
      rw [stopLoop_cons]
      obtain ⟨hactive, hstops, hrun⟩ := ih (s := s.closeSocket mt) (s.managmentCommand broken mt)
        (if s.managmentCommand broken mt then written ++ [mt] else written)
      exact ⟨hactive.trans closeSocket_active, hstops.trans closeSocket_stops,
        fun j => (hrun j).trans (closeSocket_run j)⟩

/-! ## Steps -/

theorem exact_stopOpenVPN (h : s.Exact) : (s.stopOpenVPN broken).Exact ↔ s.LastTells (.stopVPN broken) := by
  obtain ⟨hactive, hstops, hrun⟩ := @stopLoop_keeps s broken s.active false []
  have htold : ((stopLoop broken s.active false [] s).1.result = true ↔
      (stopLoop broken s.active false [] s).1.written ≠ []) ↔ s.LastTells (.stopVPN broken) := by
    rw [stopLoop_result h.nodup, stopLoop_written h.nodup, LastTells, List.nil_append]
    cases hlast : s.active.getLast? with
    | none => simp [List.getLast?_eq_none_iff.mp hlast]
    | some last =>
        have hmem : last ∈ s.active := List.mem_of_getLast? hlast
        have hwritten : s.active.filter (s.managmentCommand broken) ≠ [] ↔
            ∃ i ∈ s.active, s.managmentCommand broken i = true := by
          simp [List.filter_eq_nil_iff]
        rw [hwritten]
        simp only [Option.map_some, Option.getD_some, Option.mem_def, Option.some.injEq, forall_eq']
        constructor
        · intro hiff i hi hsent; exact hiff.mpr ⟨i, hi, hsent⟩
        · intro hall; exact ⟨fun hsent => ⟨last, hmem, hsent⟩, fun ⟨i, hi, hsent⟩ => hall i hi hsent⟩
  rw [← htold]
  constructor
  · intro hexact
    exact (List.forall_mem_cons.mp hexact.stops).1
  · intro hnew
    constructor
    case nodup => exact hactive.symm ▸ h.nodup
    case mem_active =>
      intro i
      have hrunning : (s.stopOpenVPN broken).Running i ↔ s.Running i := by
        simp only [Running, stopOpenVPN, hrun]
      rw [hrunning, ← h.mem_active]
      exact iff_of_eq (congrArg (i ∈ ·) hactive)
    case stops => exact List.forall_mem_cons.mpr ⟨hnew, hstops.symm ▸ h.stops⟩

/-- A thread changes its place in `run`, and enters or leaves the list as it does so. -/
theorem Exact.setRun {t : ManagementThread} {active : List Nat} (h : s.Exact) (hnodup : active.Nodup)
    (hself : i ∈ active ↔ t.run = .accepting ∨ t.run = .reading) (hother : ∀ j, j ≠ i → (j ∈ active ↔ j ∈ s.active)) :
    Exact { s.setThread i t with active := active } := by
  constructor
  case nodup => exact hnodup
  case stops => exact h.stops
  case mem_active =>
    intro j
    by_cases hj : j = i
    · subst hj
      simpa [Running, setThread] using hself
    · rw [hother j hj, h.mem_active]
      simp [Running, setThread, Function.update_of_ne hj]

theorem Exact.caught (h : s.Exact) : (s.caught i).Exact := by
  apply h.setRun (h.nodup.erase i)
  · simp [h.nodup.mem_erase_iff]
  · intro j hj
    simp [h.nodup.mem_erase_iff, hj]

theorem exact_handle {e : ThreadEvent} (h : s.Exact) (hs : s.handle e = some s') : s'.Exact ↔ s.LastTells e := by
  cases e with
  | start i =>
      simp only [handle, Option.ite_none_right_eq_some, Option.some.injEq] at hs
      obtain ⟨hcreated, rfl⟩ := hs
      have hnew : i ∉ s.active := by
        rw [h.mem_active]
        simp [Running, hcreated]
      refine iff_of_true (h.setRun ?_ ?_ ?_) trivial
      · exact h.nodup.append (List.nodup_singleton i) (by simpa using hnew)
      · simp
      · intro j hj; simp [hj]
  | connect i =>
      simp only [handle, Option.ite_none_right_eq_some, Option.some.injEq] at hs
      obtain ⟨haccepting, rfl⟩ := hs
      refine iff_of_true (h.setRun h.nodup ?_ ?_) trivial
      · simp [h.mem_active, Running, haccepting]
      · intro j hj; rfl
  | acceptFails i =>
      simp only [handle, Option.ite_none_right_eq_some, Option.some.injEq] at hs
      obtain ⟨_, rfl⟩ := hs
      exact iff_of_true h.caught trivial
  | endOfStream i =>
      simp only [handle, Option.ite_none_right_eq_some, Option.some.injEq] at hs
      obtain ⟨hreading, rfl⟩ := hs
      refine iff_of_false ?_ id
      intro hexact
      have hactive : i ∈ s.active := (h.mem_active i).mpr (.inr hreading)
      have hrunning : (s.returned i).Running i := (hexact.mem_active i).mp hactive
      simp [Running, returned, setThread] at hrunning
  | ioException i =>
      simp only [handle, Option.ite_none_right_eq_some, Option.some.injEq] at hs
      obtain ⟨_, rfl⟩ := hs
      exact iff_of_true h.caught trivial
  | stopVPN broken => cases hs; exact exact_stopOpenVPN h

theorem exact_init : managementThreads.init.Exact := by
  constructor <;> simp [managementThreads, Running]

/-- In every run: the list holds exactly the running threads, and each stop returns whether it has written to one, in
all states exactly when no process closes its socket while it is read and each stop that can write at all can write to
the last thread. -/
theorem active_exact_iff {s : ManagementThreads} {events : List ThreadEvent}
    (hrun : managementThreads.runFrom managementThreads.init events = some s) :
    (∀ before after t, events = before ++ after →
        managementThreads.runFrom managementThreads.init before = some t → t.Exact) ↔
      managementThreads.StepsMeet LastTells managementThreads.init events := by
  apply Machine.always_iff (I := Exact) (fun _ h => h) _ exact_init hrun
  intro s e s' h hstep
  exact ⟨(exact_handle h hstep).mp, (exact_handle h hstep).mpr⟩

/-- A session that is stopped and whose thread then fails. -/
theorem active_exact_stopped :
    ∃ s, managementThreads.runFrom managementThreads.init [.start 0, .connect 0, .stopVPN [], .ioException 0] = some s ∧
      ∀ before after t, [ThreadEvent.start 0, .connect 0, .stopVPN [], .ioException 0] = before ++ after →
        managementThreads.runFrom managementThreads.init before = some t → t.Exact :=
  ⟨_, rfl, (active_exact_iff rfl).mpr (by decide)⟩

/-- A thread whose process has closed its socket stays in the list, and a stop that has written to one thread tells
that it has not, as the next thread has no connection yet. -/
theorem active_left_behind :
    (∃ s, managementThreads.runFrom managementThreads.init [.start 0, .connect 0, .endOfStream 0] = some s ∧
      s.active = [0] ∧ (s.thread 0).run = .ended ∧ ¬ s.Exact) ∧
    ∃ s, managementThreads.runFrom managementThreads.init [.start 0, .connect 0, .start 1, .stopVPN []] = some s ∧
      s.stops = [⟨false, [0]⟩] ∧ ¬ s.Exact := by
  constructor
  · refine ⟨_, rfl, rfl, rfl, fun h => ?_⟩
    have hrunning := (h.mem_active 0).mp (List.mem_singleton.mpr rfl)
    simp [Running, returned, setThread] at hrunning
  · refine ⟨_, rfl, rfl, fun h => ?_⟩
    have htold := h.stops ⟨false, [0]⟩ (List.mem_singleton.mpr rfl)
    simp at htold

end ManagementThreads

end AllInSafe.Management
