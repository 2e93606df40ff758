import AllInSafe.Traffic.Lemmas.History

/-!
# The shape of the traffic history
-/

namespace AllInSafe.Traffic
open AllInSafe.Library.FirstOf

/-- The first point of every minute. -/
def minutePoints (adds : List TrafficDatapoint) : List TrafficDatapoint := firstOf (periodOf TIME_PERIOD_MINTUES) adds

/-- The points of a list younger than `age` when `now` is added. -/
def youngerThan (age : Int) (now : TrafficDatapoint) (l : List TrafficDatapoint) : List TrafficDatapoint :=
  l.filter fun a => now.time - a.time < age

/-- The lists after the points `adds`, of which `now` is the last. -/
structure Shape (adds : List TrafficDatapoint) (now : TrafficDatapoint) (h : TrafficHistory) : Prop where
  secondsSorted : h.trafficHistorySeconds.Pairwise fun a b => a.time ≤ b.time
  minutesSorted : h.trafficHistoryMinutes.Pairwise fun a b => a.time ≤ b.time
  hoursSorted : h.trafficHistoryHours.Pairwise fun a b => a.time ≤ b.time
  minutesOnce : h.trafficHistoryMinutes.Pairwise fun a b => periodOf TIME_PERIOD_MINTUES a ≠ periodOf TIME_PERIOD_MINTUES b
  hoursOnce : h.trafficHistoryHours.Pairwise fun a b => periodOf TIME_PERIOD_HOURS a ≠ periodOf TIME_PERIOD_HOURS b
  secondsKept : (youngerThan (5 * TIME_PERIOD_MINTUES) now adds).Sublist h.trafficHistorySeconds
  secondsRemoved : ∀ a ∈ h.trafficHistorySeconds, now.time - a.time < 6 * TIME_PERIOD_MINTUES
  minutesKept : (youngerThan (5 * TIME_PERIOD_HOURS) now (minutePoints adds)).Sublist h.trafficHistoryMinutes
  minutesRemoved : ∀ a ∈ h.trafficHistoryMinutes, now.time - a.time < 6 * TIME_PERIOD_HOURS

/-- The total of the last point; before the first point it is zero. -/
def previous (total : TrafficDatapoint → BitVec 64) (adds : List TrafficDatapoint) : BitVec 64 :=
  (adds.getLast?.map total).getD 0

/-- The difference of two totals. They are counts of bytes, so no difference overflows. -/
def IsDifference (diff : Int) (new old : BitVec 64) : Prop :=
  diff = max 0 (new - old).toInt ∧ (0 ≤ new.toInt → 0 ≤ old.toInt → diff = max 0 (new.toInt - old.toInt))

variable {adds : List TrafficDatapoint} {tdp m mh : TrafficDatapoint} {h : TrafficHistory} {timePeriod : Int}

/-! ## Retention -/

theorem youngerThan_sublist_kept {l : List TrafficDatapoint} (hP : 0 < timePeriod) (hm : 0 ≤ m.time)
    (hle : m.time ≤ tdp.time) (hl : ∀ a ∈ l, 0 ≤ a.time) :
    (youngerThan (5 * timePeriod) tdp l).Sublist (kept timePeriod m l) := by
  rw [kept_eq_filter hP hm hl]
  refine List.monotone_filter_right l fun a ha => ?_
  rw [decide_eq_true_eq] at ha ⊢
  omega

theorem sub_lt_of_mem_kept {l : List TrafficDatapoint} {a : TrafficDatapoint} (hP : 0 < timePeriod) (hm : 0 ≤ m.time)
    (hle : m.time ≤ tdp.time) (hl : ∀ a ∈ l, 0 ≤ a.time) (hsame : periodOf timePeriod m = periodOf timePeriod tdp)
    (ha : a ∈ kept timePeriod m l) : tdp.time - a.time < 6 * timePeriod := by
  have hage := ((mem_kept hP hm hl).mp ha).2
  have hapart := time_sub_lt hP hm hle hsame
  omega

/-- The last point to start a period is in the period of the last point. -/
theorem period_eq (ht : Timely (adds ++ [tdp])) (hP : 0 < timePeriod)
    (hm : (firstOf (periodOf timePeriod) (adds ++ [tdp])).getLast? = some m) :
    m.time ≤ tdp.time ∧ periodOf timePeriod m = periodOf timePeriod tdp := by
  have hmem := mem_of_getLast_firstOf hm
  have hle : m.time ≤ tdp.time := by
    rcases List.mem_append.mp hmem with hmem | hmem
    · exact ht.le m hmem
    · rw [List.mem_singleton.mp hmem]
  exact ⟨hle, le_antisymm (periodOf_mono hP (ht.nonneg m hmem) hle)
    (le_key_last (ht.periods hP) hm tdp (List.mem_append_right adds List.mem_cons_self))⟩

theorem Summarizes.shape (hs : Summarizes (adds ++ [tdp]) h m mh) (ht : Timely (adds ++ [tdp])) :
    Shape (adds ++ [tdp]) tdp h := by
  have hnonneg := ht.nonneg
  have hm := hnonneg m (mem_of_getLast_firstOf hs.minute)
  have hmh := hnonneg mh (mem_of_getLast_firstOf hs.hour)
  have hfirsts : ∀ a ∈ minutePoints (adds ++ [tdp]), 0 ≤ a.time :=
    fun a ha => hnonneg a ((firstOf_sublist (adds ++ [tdp])).subset ha)
  obtain ⟨hle, hminute⟩ := period_eq ht minutes_pos hs.minute
  obtain ⟨hleh, hhour⟩ := period_eq ht hours_pos hs.hour
  constructor
  · rw [hs.seconds]
    exact ht.1.sublist List.filter_sublist
  · rw [hs.minutes]
    exact ht.1.sublist (List.filter_sublist.trans (firstOf_sublist _))
  · rw [hs.hours]
    exact ht.1.sublist (firstOf_sublist _)
  · rw [hs.minutes]
    exact (firstOf_pairwise _).sublist List.filter_sublist
  · rw [hs.hours]
    exact firstOf_pairwise _
  · rw [hs.seconds]
    exact youngerThan_sublist_kept minutes_pos hm hle hnonneg
  · rw [hs.seconds]
    exact fun a ha => sub_lt_of_mem_kept minutes_pos hm hle hnonneg hminute ha
  · rw [hs.minutes]
    exact youngerThan_sublist_kept hours_pos hmh hleh hfirsts
  · rw [hs.minutes]
    exact fun a ha => sub_lt_of_mem_kept hours_pos hmh hleh hfirsts hhour ha

/-! ## Differences -/

theorem isDifference (new old : BitVec 64) : IsDifference (max 0 (new - old).toInt) new old := by
  refine ⟨rfl, fun hnew hold => ?_⟩
  have hlt₁ := new.toInt_lt
  have hlt₂ := old.toInt_lt
  rw [BitVec.toInt_sub, Int.bmod_eq_of_le] <;> omega

theorem getLastDiff_historyAfter (adds : List TrafficDatapoint) (tdp : TrafficDatapoint) :
    IsDifference ((historyAfter adds).add tdp).1.getDiffIn tdp.inBytes (previous TrafficDatapoint.inBytes adds) ∧
    IsDifference ((historyAfter adds).add tdp).1.getDiffOut tdp.outBytes (previous TrafficDatapoint.outBytes adds) := by
  simp only [TrafficHistory.add, TrafficHistory.getLastDiff, getLast_historyAfter, LastDiff.getDiffIn,
    LastDiff.getDiffOut, previous]
  cases adds.getLast? with
  | none => exact ⟨isDifference _ _, isDifference _ _⟩
  | some last => exact ⟨isDifference _ _, isDifference _ _⟩

/-- After each `add` the history has its shape, and the differences are those to the point before. -/
theorem add_keeps_shape (adds : List TrafficDatapoint) (tdp : TrafficDatapoint) (ht : Timely (adds ++ [tdp])) :
    Shape (adds ++ [tdp]) tdp ((historyAfter adds).add tdp).2 ∧
    IsDifference ((historyAfter adds).add tdp).1.getDiffIn tdp.inBytes (previous TrafficDatapoint.inBytes adds) ∧
    IsDifference ((historyAfter adds).add tdp).1.getDiffOut tdp.outBytes (previous TrafficDatapoint.outBytes adds) := by
  obtain ⟨m, mh, hs⟩ := exists_summarizes (by simp) ht
  rw [historyAfter_concat] at hs
  exact ⟨hs.shape ht, getLastDiff_historyAfter adds tdp⟩

/-- Two points in the first minute after an hour, and a later one after the totals have started again. -/
def restarted : List TrafficDatapoint := [⟨10, 5, 3600000⟩, ⟨20, 9, 3630000⟩]

instance (adds : List TrafficDatapoint) : Decidable (Timely adds) := inferInstanceAs (Decidable (_ ∧ _))

theorem add_keeps_shape_restarted :
    Shape (restarted ++ [⟨5, 30, 4000000⟩]) ⟨5, 30, 4000000⟩ ((historyAfter restarted).add ⟨5, 30, 4000000⟩).2 ∧
    IsDifference 0 5 20 ∧ IsDifference 21 30 9 :=
  add_keeps_shape restarted ⟨5, 30, 4000000⟩ (by decide)

/-! ## Late listeners -/

/-- What a new listener sees has no differences. -/
theorem addByteCountListener_eq (hlast : h.trafficHistorySeconds.getLast? = some tdp) (currentTimeMillis : BitVec 64) :
    addByteCountListener currentTimeMillis h = ⟨tdp.inBytes, tdp.outBytes, 0, 0⟩ := by
  have hdiff : h.getLastDiff none currentTimeMillis = ⟨tdp, tdp⟩ := by
    simp only [TrafficHistory.getLastDiff, hlast, List.head?_reverse, Option.getD_some]
    split <;> rfl
  simp [addByteCountListener, hdiff, LastDiff.getIn, LastDiff.getOut, LastDiff.getDiffIn, LastDiff.getDiffOut]

/-- A listener that is added after an update sees what the others saw exactly when the update has brought no traffic. -/
theorem addByteCountListener_eq_iff (adds : List TrafficDatapoint) (tdp : TrafficDatapoint)
    (currentTimeMillis : BitVec 64) :
    addByteCountListener currentTimeMillis (updateByteCount tdp (historyAfter adds)).2 =
        (updateByteCount tdp (historyAfter adds)).1 ↔
      (tdp.inBytes - previous TrafficDatapoint.inBytes adds).toInt ≤ 0 ∧
      (tdp.outBytes - previous TrafficDatapoint.outBytes adds).toInt ≤ 0 := by
  obtain ⟨⟨hin, -⟩, ⟨hout, -⟩⟩ := getLastDiff_historyAfter adds tdp
  have hlate : addByteCountListener currentTimeMillis (updateByteCount tdp (historyAfter adds)).2 =
      ⟨tdp.inBytes, tdp.outBytes, 0, 0⟩ :=
    addByteCountListener_eq (getLast_addDataPoint tdp (historyAfter adds)) currentTimeMillis
  rw [hlate, updateByteCount]
  simp only [ByteCount.mk.injEq, true_and, hin, hout]
  exact and_congr (eq_comm.trans max_eq_left_iff) (eq_comm.trans max_eq_left_iff)

/-- The second update brings twenty bytes, and the new listener sees no difference. -/
theorem late_listener_without_difference :
    (updateByteCount ⟨30, 0, 3601000⟩ (historyAfter [⟨10, 0, 3600000⟩])).1 = ⟨30, 0, 20, 0⟩ ∧
    addByteCountListener 3602000 (updateByteCount ⟨30, 0, 3601000⟩ (historyAfter [⟨10, 0, 3600000⟩])).2 =
      ⟨30, 0, 0, 0⟩ := by
  decide

end AllInSafe.Traffic
