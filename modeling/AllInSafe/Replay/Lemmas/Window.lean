import AllInSafe.Library.ReplayWindow
import AllInSafe.Replay.PacketId

/-!
# The sequence list of a receiver

The entry at the index `i` belongs to the number `i` below the highest one. Every entry is what a replay window says of
its number.
-/

namespace AllInSafe.Replay
open AllInSafe.Library

section Marks

variable {w : ReplayWindow Int} {l : CircularList Int} {id n i : Nat} {time_backtrack now t : Int} {expire : Bool}

/-! ## Entries -/

def mark (w : ReplayWindow Int) (id : Nat) : Int :=
  if id ≤ w.expired then SEQ_EXPIRED else (w.seen.lookup id).getD SEQ_UNSEEN

/-- The entries of `n` numbers from `top` downwards. -/
def marks (w : ReplayWindow Int) (top n : Nat) : List Int := (List.range n).map fun i => mark w (top - i)

/-- No number has been accepted at a time that the list takes for something else. -/
def ClockRuns (w : ReplayWindow Int) : Prop := ∀ e ∈ w.seen, SEQ_EXPIRED < e.2

@[simp] theorem length_marks {top : Nat} : (marks w top n).length = n := by simp [marks]

theorem getElem_marks {top : Nat} (h : i < (marks w top n).length) : (marks w top n)[i] = mark w (top - i) := by
  simp [marks]

theorem marks_succ {top : Nat} : marks w top (n + 1) = mark w top :: marks w (top - 1) n := by
  simp only [marks, List.range_succ_eq_map, List.map_cons, List.map_map, Nat.sub_zero, List.cons.injEq, true_and]
  refine List.map_congr_left fun i _ => congrArg (mark w) ?_
  omega

theorem lookup_mem (h : w.seen.lookup id = some t) : (id, t) ∈ w.seen := by
  obtain ⟨before, after, hseen, -⟩ := List.lookup_eq_some_iff.mp h
  rw [hseen]
  simp

theorem lookup_of_mem (hnodup : (w.seen.map Prod.fst).Nodup) (h : (id, t) ∈ w.seen) : w.seen.lookup id = some t := by
  cases hlookup : w.seen.lookup id with
  | none =>
      have hne := List.lookup_eq_none_iff.mp hlookup _ h
      simp at hne
  | some s =>
      have hinj := List.inj_on_of_nodup_map hnodup (lookup_mem hlookup) h rfl
      simpa using hinj

theorem lookup_none_iff : w.seen.lookup id = none ↔ id ∉ w.seen.map Prod.fst := by
  simp only [List.lookup_eq_none_iff, List.mem_map, not_exists, not_and, bne_iff_ne, ne_eq]
  exact forall₂_congr fun e _ => not_congr eq_comm

theorem mark_of_le (h : id ≤ w.expired) : mark w id = SEQ_EXPIRED := if_pos h

theorem mark_eq_expired_iff (hclock : ClockRuns w) : mark w id = SEQ_EXPIRED ↔ id ≤ w.expired := by
  refine ⟨fun h => ?_, mark_of_le⟩
  by_contra hlater
  rw [mark, if_neg hlater] at h
  cases hlookup : w.seen.lookup id with
  | none => simp [hlookup, SEQ_UNSEEN, SEQ_EXPIRED] at h
  | some t =>
      have ht := hclock _ (lookup_mem hlookup)
      simp only [hlookup, Option.getD_some] at h
      exact absurd ht (by simp [h])

theorem mark_eq_unseen_iff (hclock : ClockRuns w) :
    mark w id = SEQ_UNSEEN ↔ w.expired < id ∧ id ∉ w.seen.map Prod.fst := by
  rw [← lookup_none_iff, ← not_le, mark]
  split_ifs with h
  · simp [h, SEQ_EXPIRED, SEQ_UNSEEN]
  · cases hlookup : w.seen.lookup id with
    | none => simp [h]
    | some t =>
        have ht := hclock _ (lookup_mem hlookup)
        simp only [SEQ_EXPIRED] at ht
        simp only [Option.getD_some, SEQ_UNSEEN, reduceCtorEq, and_false, iff_false]
        omega

/-! ## Moving the window -/

@[simp] theorem length_cells_pushUnseen : (pushUnseen n l).cells.length = l.cells.length := by
  induction n generalizing l with
  | zero => rfl
  | succ n ih => rw [pushUnseen, ih, CircularList.length_cells_push]

theorem toList_pushUnseen :
    (pushUnseen n l).toList = (List.replicate n SEQ_UNSEEN ++ l.toList).take l.cells.length := by
  induction n generalizing l with
  | zero =>
      have hsize := l.size_le
      rw [← CircularList.length_toList] at hsize
      simp [pushUnseen, List.take_of_length_le hsize]
  | succ n ih =>
      have hfront : List.replicate n SEQ_UNSEEN ++ SEQ_UNSEEN :: l.toList =
          List.replicate (n + 1) SEQ_UNSEEN ++ l.toList := by
        rw [List.replicate_succ', List.append_assoc, List.singleton_append]
      rw [pushUnseen, ih, CircularList.toList_push, CircularList.length_cells_push, ← hfront]
      rw [List.take_append, List.take_append, List.take_take]
      congr 2
      exact Nat.min_eq_left (Nat.sub_le _ _)

/-! ## Reaping -/

/-- `packet_id_reap` on the entries. -/
def reapList (time_backtrack now : Int) (expire : Bool) : List Int → List Int
  | [] => []
  | t :: ts =>
      if t = SEQ_EXPIRED then t :: ts
      else
        let expire := expire || (t ≠ 0 && t + time_backtrack < now)
        (if expire then SEQ_EXPIRED else t) :: reapList time_backtrack now expire ts

@[simp] theorem length_cells_reapFrom :
    (reapFrom time_backtrack now expire i n l).cells.length = l.cells.length := by
  induction n generalizing i l expire with
  | zero => rfl
  | succ n ih =>
      simp only [reapFrom]
      split_ifs <;> simp [ih]

theorem toList_reapFrom (h : i + n = l.size) : (reapFrom time_backtrack now expire i n l).toList =
    l.toList.take i ++ reapList time_backtrack now expire (l.toList.drop i) := by
  induction n generalizing i l expire with
  | zero =>
      have hlength : l.toList.length ≤ i := by simp; omega
      rw [reapFrom, List.take_of_length_le hlength, List.drop_eq_nil_of_le hlength, reapList, List.append_nil]
  | succ n ih =>
      have hi : i < l.size := by omega
      have hi' : i < l.toList.length := by simpa using hi
      have hitem : l.toList[i] = l.item i hi := by
        have hget := CircularList.getElem?_toList hi
        rwa [List.getElem?_eq_getElem hi', Option.some.injEq] at hget
      rw [List.drop_eq_getElem_cons hi', reapList, hitem, reapFrom, dif_pos hi]
      simp only
      split_ifs with hexpired
      · rw [← hitem, ← List.drop_eq_getElem_cons hi', List.take_append_drop]
      · have hset : i < (l.toList.set i SEQ_EXPIRED).length := by rwa [List.length_set]
        rw [ih (by rw [CircularList.size_set]; omega), CircularList.toList_set hi,
          List.drop_set_of_lt (Nat.lt_succ_self i),
          List.take_succ_eq_append_getElem hset, List.take_set_of_le (le_refl i), List.getElem_set_self,
            List.append_assoc,
          List.singleton_append]
      · rw [ih (by omega), List.take_succ_eq_append_getElem hi', List.append_assoc, List.singleton_append, hitem]

variable {top : Nat}

theorem marks_of_le (h : top ≤ w.expired) : marks w top n = List.replicate n SEQ_EXPIRED := by
  refine List.eq_replicate_iff.mpr ⟨length_marks, fun t ht => ?_⟩
  obtain ⟨i, -, rfl⟩ := List.mem_map.mp ht
  exact mark_of_le (by omega)

/-- Once an entry has expired, all entries behind it do. -/
theorem reapList_marks_expire (hclock : ClockRuns w) :
    reapList time_backtrack now true (marks w top n) = List.replicate n SEQ_EXPIRED := by
  induction n generalizing top with
  | zero => rfl
  | succ n ih =>
      rw [marks_succ, reapList, List.replicate_succ]
      split_ifs with hexpired
      · have hle := (mark_eq_expired_iff hclock).mp hexpired
        rw [hexpired, marks_of_le (by omega)]
      · simp [ih]

/-- Reaping expires the numbers up to the highest one that came too long ago. -/
theorem reapList_marks (hclock : ClockRuns w) (hnodup : (w.seen.map Prod.fst).Nodup) (hn : n ≤ top)
    (hold : ∀ e ∈ w.seen, e.2 + time_backtrack < now → e.1 ≤ top) :
    reapList time_backtrack now false (marks w top n) = marks (w.expire time_backtrack now) top n := by
  induction n generalizing top with
  | zero => rfl
  | succ n ih =>
      rw [marks_succ, reapList]
      by_cases hexpired : top ≤ w.expired
      · have hlater : top ≤ (w.expire time_backtrack now).expired := by
          by_contra hlt
          exact absurd (ReplayWindow.expire_expired_lt_iff.mp (not_le.mp hlt)).1 (not_lt.mpr hexpired)
        rw [if_pos (mark_of_le hexpired), ← marks_succ, marks_of_le hexpired, marks_of_le hlater]
      · rw [if_neg fun h => hexpired ((mark_eq_expired_iff hclock).mp h)]
        have hmark : mark w top = (w.seen.lookup top).getD SEQ_UNSEEN := if_neg hexpired
        by_cases htoo : mark w top ≠ 0 ∧ mark w top + time_backtrack < now
        · have hseen : (top, mark w top) ∈ w.seen := by
            cases hlookup : w.seen.lookup top with
            | none => exact absurd (by rw [hmark, hlookup]; rfl) htoo.1
            | some t =>
                rw [hmark, hlookup]
                exact lookup_mem hlookup
          have hlater : top ≤ (w.expire time_backtrack now).expired := by
            by_contra hlt
            exact absurd ((ReplayWindow.expire_expired_lt_iff.mp (not_le.mp hlt)).2 _ hseen htoo.2) (lt_irrefl _)
          simp only [Bool.false_or, htoo, ne_eq, not_false_eq_true, decide_true, Bool.and_self, if_true]
          rw [reapList_marks_expire hclock, marks_of_le hlater, List.replicate_succ]
        · have hyoung : ∀ e ∈ w.seen, e.2 + time_backtrack < now → e.1 < top := by
            intro e he hage
            refine lt_of_le_of_ne (hold e he hage) fun htop => htoo ?_
            have hlookup : w.seen.lookup top = some e.2 := lookup_of_mem hnodup (htop ▸ he)
            have hclock' := hclock e he
            simp only [SEQ_EXPIRED] at hclock'
            rw [hmark, hlookup, Option.getD_some]
            exact ⟨by omega, hage⟩
          have hlt : (w.expire time_backtrack now).expired < top :=
            ReplayWindow.expire_expired_lt_iff.mpr ⟨not_le.mp hexpired, hyoung⟩
          have hkept : mark (w.expire time_backtrack now) top = mark w top := by
            rw [hmark, mark, if_neg (not_le.mpr hlt), ReplayWindow.expire_seen]
          have hgoes : (false || (decide (mark w top ≠ 0) && decide (mark w top + time_backtrack < now))) = false := by
            simpa using htoo
          simp only [hgoes, Bool.false_eq_true, if_false]
          rw [marks_succ, hkept, ih (by omega) fun e he hage => Nat.le_sub_one_of_lt (hyoung e he hage)]

end Marks

/-! ## A receiver with a sequence list is a replay window -/

/-- The receiver `p` with the list `l` remembers what the window `w` does. -/
structure Represents (p : PacketIdRec) (l : CircularList Int) (w : ReplayWindow Int) : Prop where
  seq_list : p.seq_list = some l
  cells : l.cells.length = p.seq_backtrack
  time : p.time = w.era
  id : p.id = w.top
  entries : l.toList = marks w w.top (min w.top p.seq_backtrack)
  sound : w.Sound
  clock : ClockRuns w

variable {p : PacketIdRec} {l : CircularList Int} {w : ReplayWindow Int} {pin : PacketIdNet} {now : Int}

theorem represents_init {seq_backtrack : Nat} {time_backtrack : Int} (h : 0 < seq_backtrack) :
    Represents (packet_id_init_recv seq_backtrack time_backtrack) (CircularList.alloc seq_backtrack SEQ_UNSEEN h)
      { era := 0 } where
  seq_list := by rw [packet_id_init_recv, dif_pos h]
  cells := by simp [packet_id_init_recv, dif_pos h, CircularList.alloc]
  time := by rw [packet_id_init_recv, dif_pos h]
  id := by rw [packet_id_init_recv, dif_pos h]
  entries := by simp [marks, CircularList.toList, CircularList.alloc]
  sound := ⟨List.nodup_nil, by simp, le_refl _⟩
  clock := by simp [ClockRuns]

namespace Represents

theorem size (h : Represents p l w) : l.size = min w.top p.seq_backtrack := by
  rw [← CircularList.length_toList, h.entries, length_marks]

/-- The window after the reaping that a packet at this time causes. -/
def reaped (p : PacketIdRec) (now : Int) (w : ReplayWindow Int) : ReplayWindow Int :=
  if p.last_reap + SEQ_REAP_INTERVAL ≤ now ∧ p.time_backtrack ≠ 0 then w.expire p.time_backtrack now else w

theorem reap_test (h : Represents p l w) (now : Int) : ∃ l', Represents (packet_id_reap_test now p) l' (reaped p now w) := by
  unfold reaped packet_id_reap_test
  by_cases hinterval : p.last_reap + SEQ_REAP_INTERVAL ≤ now
  · by_cases htime : p.time_backtrack ≠ 0
    · rw [if_pos hinterval, if_pos ⟨hinterval, htime⟩]
      refine ⟨reapFrom p.time_backtrack now false 0 l.size l, ?_, ?_, h.time, h.id, ?_, h.sound.expire, h.clock⟩
      · simp [packet_id_reap, htime, h.seq_list]
      · simp [packet_id_reap, h.cells]
      · rw [toList_reapFrom (Nat.zero_add _), List.take_zero, List.drop_zero, List.nil_append, h.entries]
        exact reapList_marks h.clock h.sound.nodup (Nat.min_le_left _ _) fun e he _ => h.sound.seen_le e he
    · rw [if_pos hinterval, if_neg fun hboth => htime hboth.2]
      refine ⟨l, ?_, h.cells, h.time, h.id, h.entries, h.sound, h.clock⟩
      simpa [packet_id_reap, htime] using h.seq_list
  · rw [if_neg hinterval, if_neg fun hboth => hinterval hboth.1]
    exact ⟨l, h⟩

theorem item (h : Represents p l w) {i : Nat} (hi : i < l.size) : l.item i hi = mark w (w.top - i) := by
  have hget := CircularList.getElem?_toList hi
  have hi' : i < (marks w w.top (min w.top p.seq_backtrack)).length := by rwa [length_marks, ← h.size]
  rw [h.entries, List.getElem?_eq_getElem hi', getElem_marks] at hget
  exact (Option.some.inj hget).symm

/-- The receiver takes what the window accepts. -/
theorem test_iff (h : Represents p l w) :
    packet_id_test pin p = true ↔ pin.id ≠ 0 ∧ w.Accepts p.seq_backtrack pin.time pin.id := by
  unfold packet_id_test ReplayWindow.Accepts
  by_cases hzero : pin.id = 0
  · simp [hzero]
  · simp only [hzero, if_false, h.seq_list, h.time, h.id, ne_eq, not_false_eq_true, true_and]
    rcases lt_trichotomy pin.time w.era with htime | htime | htime
    · simp [htime.ne, htime, htime.ne', htime.not_gt]
    · simp only [htime, if_true, lt_irrefl, false_or, true_and]
      by_cases hlast : pin.id > w.top
      · have hnew : pin.id ∉ w.seen.map Prod.fst := fun hmem => by
          obtain ⟨e, he, heq⟩ := List.mem_map.mp hmem
          exact absurd (h.sound.seen_le e he) (by omega)
        have hexpired := h.sound.expired_le
        simp only [hlast, if_true, true_iff]
        exact ⟨by omega, by omega, hnew⟩
      · rw [if_neg hlast]
        split_ifs with hroom
        · have hroom' := hroom
          rw [h.size] at hroom'
          have hnumber : w.top - (w.top - pin.id) = pin.id := by omega
          rw [decide_eq_true_eq, h.item hroom, hnumber]
          rw [show (0 : Int) = SEQ_UNSEEN from rfl, mark_eq_unseen_iff h.clock]
          exact ⟨fun hfresh => ⟨by omega, hfresh⟩, fun hfresh => hfresh.2⟩
        · rw [h.size] at hroom
          simp only [false_iff, not_and]
          intro hwindow
          omega
    · simp [htime, htime.ne', htime.not_gt]

end Represents

/-! ## Adding a packet -/

variable {width id j : Nat} {t : Int}

theorem mark_above (h : w.Sound) (hj : w.top < j) : mark w j = SEQ_UNSEEN := by
  have hlookup : w.seen.lookup j = none := lookup_none_iff.mpr fun hmem => by
    obtain ⟨e, he, rfl⟩ := List.mem_map.mp hmem
    exact absurd (h.seen_le e he) (by omega)
  rw [mark, if_neg (by have := h.expired_le; omega), hlookup]
  rfl

theorem mark_record_self (hid : id ≠ 0) (haccepts : w.Accepts width t id) : mark (w.record now t id) id = now := by
  unfold mark ReplayWindow.record
  split_ifs with hnew hexpired hexpired
  · exact absurd hexpired (by simpa using hid)
  · simp
  · exact absurd (haccepts.resolve_left hnew).2.2.1 (not_lt.mpr hexpired)
  · simp

theorem mark_record_newer (hnew : w.era < t) (hj : j ≠ id) (hpos : j ≠ 0) :
    mark (w.record now t id) j = SEQ_UNSEEN := by
  simp [mark, ReplayWindow.record, hnew, hpos, List.lookup, beq_false_of_ne hj]

theorem mark_record_other (hnew : ¬ w.era < t) (hj : j ≠ id) : mark (w.record now t id) j = mark w j := by
  simp [mark, ReplayWindow.record, hnew, List.lookup, beq_false_of_ne hj]

namespace Represents

theorem restarts_eq (h : Represents p l w) (hbacktrack : 0 < p.seq_backtrack) :
    restarts pin l p = true ↔ w.top = 0 ∨ w.era < pin.time ∨ w.top + p.seq_backtrack < pin.id := by
  simp only [restarts, h.size, h.time, h.id, gt_iff_lt, ge_iff_le, Bool.or_eq_true, decide_eq_true_eq,
    Bool.and_eq_true]
  omega

/-- The receiver after a packet that moves the list `l₀` with the highest number `id₀` up to its own number. -/
theorem of_pushed {l₀ : CircularList Int} {id₀ : Nat} {w' : ReplayWindow Int}
    (hcells : l₀.cells.length = p.seq_backtrack)
    (htime : t = w'.era) (hclock : SEQ_EXPIRED < now) (htop : w'.top = id₀ + (pin.id - id₀))
    (hwidth : w'.top < pin.id + p.seq_backtrack)
    (hpos : 0 < pin.id) (hlength : min (pin.id - id₀ + l₀.size) p.seq_backtrack = min w'.top p.seq_backtrack)
    (hsound : w'.Sound) (hruns : ClockRuns w') (hown : mark w' pin.id = now)
    (hothers : ∀ i, i < min w'.top p.seq_backtrack → w'.top - i ≠ pin.id →
      (List.replicate (pin.id - id₀) SEQ_UNSEEN ++ l₀.toList)[i]? = some (mark w' (w'.top - i))) :
    ∃ l', Represents
      { p with
        time := t
        id := id₀ + (pin.id - id₀)
        seq_list := some (if id₀ + (pin.id - id₀) - pin.id < (pushUnseen (pin.id - id₀) l₀).size ∧ now > SEQ_EXPIRED
          then (pushUnseen (pin.id - id₀) l₀).set (id₀ + (pin.id - id₀) - pin.id) now
          else pushUnseen (pin.id - id₀) l₀) } l' w' := by
  have hsize : (pushUnseen (pin.id - id₀) l₀).size = min w'.top p.seq_backtrack := by
    rw [← CircularList.length_toList, toList_pushUnseen, List.length_take, List.length_append, List.length_replicate,
      CircularList.length_toList, hcells, Nat.min_comm, hlength]
  have hroom : w'.top - pin.id < (pushUnseen (pin.id - id₀) l₀).size := by rw [hsize]; omega
  rw [← htop, if_pos ⟨hroom, hclock⟩]
  refine ⟨_, rfl, by simp [hcells], htime, rfl, ?_, hsound, hruns⟩
  rw [CircularList.toList_set hroom, toList_pushUnseen, hcells]
  apply List.ext_getElem
  · simpa [Nat.min_comm] using hlength
  intro i hi hi'
  rw [length_marks] at hi'
  rw [getElem_marks, List.getElem_set]
  split_ifs with hmark
  · rw [← hown]
    congr 1
    omega
  · have hget := hothers i hi' (by omega)
    rw [List.getElem_take]
    exact List.getElem_eq_iff _ |>.mpr hget

theorem add (h : Represents p l w) (hbacktrack : 0 < p.seq_backtrack) (hclock : SEQ_EXPIRED < now)
    (hid : pin.id ≠ 0) (haccepts : w.Accepts p.seq_backtrack pin.time pin.id) :
    ∃ l', Represents (packet_id_add now pin p) l' (w.record now pin.time pin.id) := by
  have hsound := h.sound.record now haccepts
  have hexpired := h.sound.expired_le
  have hruns : ClockRuns (w.record now pin.time pin.id) := by
    unfold ReplayWindow.record ClockRuns
    split_ifs
    · simpa using hclock
    · exact List.forall_mem_cons.mpr ⟨hclock, h.clock⟩
  have hera := ReplayWindow.record_era now haccepts
  simp only [packet_id_add, h.seq_list]
  have hown := @mark_record_self w now _ pin.id pin.time hid haccepts
  by_cases hrestart : restarts pin l p = true
  · have hwhy := (h.restarts_eq hbacktrack).mp hrestart
    have hbase : (if pin.id > p.seq_backtrack then pin.id - p.seq_backtrack else 0) = pin.id - p.seq_backtrack := by
      split_ifs <;> omega
    have htop : (w.record now pin.time pin.id).top = pin.id := by
      rw [ReplayWindow.record_top]
      split_ifs <;> omega
    simp only [hrestart, if_true, hbase]
    refine @of_pushed p pin now _ l.reset (pin.id - p.seq_backtrack) _ h.cells hera.symm hclock (by omega) (by omega)
      (by omega) ?_ hsound hruns hown ?_
    · simp only [CircularList.size_reset, htop]
      omega
    · intro i hi hne
      rw [htop] at hi hne
      have hin : i < pin.id - (pin.id - p.seq_backtrack) := by omega
      rw [htop, List.getElem?_append_left (by simpa using hin), List.getElem?_replicate, if_pos hin, Option.some.injEq]
      by_cases hnew : w.era < pin.time
      · exact (mark_record_newer hnew hne (by omega)).symm
      · rw [mark_record_other hnew hne, mark_above h.sound]
        omega
  · have hwhy := hrestart
    rw [h.restarts_eq hbacktrack] at hwhy
    simp only [not_or, not_lt] at hwhy
    obtain ⟨hsome, hera', hnear⟩ := hwhy
    obtain ⟨heq, hwindow, -, -⟩ := haccepts.resolve_left (not_lt.mpr hera')
    have htop : (w.record now pin.time pin.id).top = max w.top pin.id := by
      rw [ReplayWindow.record_top, if_neg (not_lt.mpr hera')]
    have hsize := h.size
    simp only [hrestart, Bool.false_eq_true, if_false, h.time, h.id]
    refine @of_pushed p pin now _ l w.top _ h.cells (heq.trans hera.symm) hclock (by omega) (by omega) (by omega)
      (by omega)
      hsound hruns hown ?_
    intro i hi hne
    rw [mark_record_other (not_lt.mpr hera') hne]
    by_cases hin : i < pin.id - w.top
    · rw [List.getElem?_append_left (by simpa using hin), List.getElem?_replicate, if_pos hin, mark_above h.sound]
      omega
    · have hold : i - (pin.id - w.top) < l.size := by omega
      rw [List.getElem?_append_right (by simpa using hin), List.length_replicate, CircularList.getElem?_toList hold,
        h.item hold]
      congr 2
      omega

end Represents

end AllInSafe.Replay
