import AllInSafe.Library.FirstOf
import AllInSafe.Traffic.Model
import Mathlib

/-!
# What the history holds

The lists are the points of the last periods before the last point that started a period.
-/

namespace AllInSafe.Traffic
open AllInSafe.Library.FirstOf

def TrafficDatapoint.time (tdp : TrafficDatapoint) : Int := tdp.timestamp.toInt

/-- The points come in the order of their times, from one hour after the epoch on. -/
def Timely (adds : List TrafficDatapoint) : Prop :=
  adds.Pairwise (fun a b => a.time ≤ b.time) ∧ ∀ tdp ∈ adds, 3600 * 1000 ≤ tdp.time

/-- The history after these points have been added. -/
def historyAfter (adds : List TrafficDatapoint) : TrafficHistory :=
  adds.foldl (fun h tdp => (h.add tdp).2) {}

variable {timePeriod : Int} {newTdp tdp a m mh : TrafficDatapoint} {l adds : List TrafficDatapoint} {h : TrafficHistory}

/-! ## Periods -/

theorem tdiv_lt_iff (hP : 0 < timePeriod) (d : Int) : d.tdiv timePeriod < PERIODS_TO_KEEP ↔ d < 5 * timePeriod := by
  rcases Int.le_total 0 d with hd | hd
  · rw [Int.tdiv_eq_ediv_of_nonneg hd, Int.ediv_lt_iff_lt_mul hP]
    rfl
  · have hneg : 0 ≤ (-d).tdiv timePeriod := Int.tdiv_nonneg (Int.neg_nonneg_of_nonpos hd) hP.le
    rw [Int.neg_tdiv] at hneg
    simp only [PERIODS_TO_KEEP]
    constructor <;> intro <;> omega

theorem toInt_sub_of_nonneg (hnew : 0 ≤ newTdp.time) (ha : 0 ≤ a.time) :
    (newTdp.timestamp - a.timestamp).toInt = newTdp.time - a.time := by
  have hlt₁ := newTdp.timestamp.toInt_lt
  have hlt₂ := a.timestamp.toInt_lt
  simp only [TrafficDatapoint.time] at hnew ha ⊢
  rw [BitVec.toInt_sub, Int.bmod_eq_of_le] <;> omega

theorem mem_kept (hP : 0 < timePeriod) (hnew : 0 ≤ newTdp.time) (hl : ∀ a ∈ l, 0 ≤ a.time) :
    a ∈ kept timePeriod newTdp l ↔ a ∈ l ∧ newTdp.time - a.time < 5 * timePeriod := by
  rw [kept, List.mem_filter, decide_eq_true_eq]
  refine and_congr_right fun ha => ?_
  rw [toInt_sub_of_nonneg hnew (hl a ha), tdiv_lt_iff hP]

theorem kept_eq_filter (hP : 0 < timePeriod) (hnew : 0 ≤ newTdp.time) (hl : ∀ a ∈ l, 0 ≤ a.time) :
    kept timePeriod newTdp l = l.filter fun a => newTdp.time - a.time < 5 * timePeriod := by
  refine List.filter_congr fun a ha => ?_
  rw [toInt_sub_of_nonneg hnew (hl a ha), decide_eq_decide, tdiv_lt_iff hP]

/-- A point that is not older stays. -/
theorem kept_singleton (hP : 0 < timePeriod) (hnew : 0 ≤ newTdp.time) (hle : newTdp.time ≤ a.time) :
    kept timePeriod newTdp [a] = [a] := by
  refine List.filter_eq_self.mpr fun b hb => ?_
  rw [List.mem_singleton.mp hb, decide_eq_true_eq, toInt_sub_of_nonneg hnew (hnew.trans hle), tdiv_lt_iff hP]
  have := Int.mul_pos (show (0 : Int) < 5 by decide) hP
  omega

theorem kept_concat (hP : 0 < timePeriod) (hnew : 0 ≤ newTdp.time) (hle : newTdp.time ≤ a.time) :
    kept timePeriod newTdp (l ++ [a]) = kept timePeriod newTdp l ++ [a] := by
  rw [kept, List.filter_append]
  exact congrArg (kept timePeriod newTdp l ++ ·) (kept_singleton hP hnew hle)

/-- What a later point removes contains what an earlier one has removed. -/
theorem kept_kept (hP : 0 < timePeriod) (hm : 0 ≤ m.time) (hle : m.time ≤ newTdp.time) (hl : ∀ a ∈ l, 0 ≤ a.time) :
    kept timePeriod newTdp (kept timePeriod m l) = kept timePeriod newTdp l := by
  have hnew := hm.trans hle
  rw [kept_eq_filter hP hm hl, kept_eq_filter hP hnew hl,
    kept_eq_filter hP hnew fun a ha => hl a (List.mem_filter.mp ha).1, List.filter_filter]
  refine List.filter_congr fun a ha => ?_
  simp only [Bool.and_eq_left_iff_imp, decide_eq_true_eq]
  omega

theorem periodOf_mono (hP : 0 < timePeriod) (ha : 0 ≤ a.time) (hle : a.time ≤ tdp.time) :
    periodOf timePeriod a ≤ periodOf timePeriod tdp := by
  simp only [TrafficDatapoint.time] at ha hle
  rw [periodOf, periodOf, Int.tdiv_eq_ediv_of_nonneg ha, Int.tdiv_eq_ediv_of_nonneg (ha.trans hle)]
  exact Int.ediv_le_ediv hP hle

theorem Timely.periods (h : Timely adds) (hP : 0 < timePeriod) :
    adds.Pairwise fun a b => periodOf timePeriod a ≤ periodOf timePeriod b := by
  refine h.1.imp_of_mem fun ha hb hle => periodOf_mono hP ?_ hle
  have := h.2 _ ha
  omega

theorem Timely.nonneg (h : Timely adds) : ∀ a ∈ adds, 0 ≤ a.time := fun a ha => by
  have := h.2 a ha
  omega

/-- Points in one minute are in one hour. -/
theorem hour_eq_of_minute_eq (ha : 0 ≤ a.time) (hle : a.time ≤ tdp.time)
    (h : periodOf TIME_PERIOD_MINTUES a = periodOf TIME_PERIOD_MINTUES tdp) :
    periodOf TIME_PERIOD_HOURS a = periodOf TIME_PERIOD_HOURS tdp := by
  simp only [TrafficDatapoint.time] at ha hle
  simp only [periodOf, Int.tdiv_eq_ediv_of_nonneg ha, Int.tdiv_eq_ediv_of_nonneg (ha.trans hle), TIME_PERIOD_MINTUES,
    TIME_PERIOD_HOURS] at h ⊢
  omega

/-- Points in one period are less than the period apart. -/
theorem time_sub_lt (hP : 0 < timePeriod) (ha : 0 ≤ a.time) (hle : a.time ≤ tdp.time)
    (h : periodOf timePeriod a = periodOf timePeriod tdp) : tdp.time - a.time < timePeriod := by
  simp only [TrafficDatapoint.time] at ha hle ⊢
  rw [periodOf, periodOf, Int.tdiv_eq_ediv_of_nonneg ha, Int.tdiv_eq_ediv_of_nonneg (ha.trans hle)] at h
  have ha' := Int.mul_ediv_add_emod a.timestamp.toInt timePeriod
  have ht' := Int.mul_ediv_add_emod tdp.timestamp.toInt timePeriod
  have hlow := Int.emod_nonneg a.timestamp.toInt hP.ne'
  have hhigh := Int.emod_lt_of_pos tdp.timestamp.toInt hP
  rw [h] at ha'
  omega

/-! ## The lists -/

/-- The lists after the points `adds`, where `m` was the last one to start a minute and `mh` an hour. -/
structure Summarizes (adds : List TrafficDatapoint) (h : TrafficHistory) (m mh : TrafficDatapoint) : Prop where
  lastSecond : h.lastSecondUsedForMinute = some m
  lastMinute : h.lastMinuteUsedForHours = some mh
  minute : (firstOf (periodOf TIME_PERIOD_MINTUES) adds).getLast? = some m
  hour : (firstOf (periodOf TIME_PERIOD_HOURS) adds).getLast? = some mh
  seconds : h.trafficHistorySeconds = kept TIME_PERIOD_MINTUES m adds
  minutes : h.trafficHistoryMinutes = kept TIME_PERIOD_HOURS mh (firstOf (periodOf TIME_PERIOD_MINTUES) adds)
  hours : h.trafficHistoryHours = firstOf (periodOf TIME_PERIOD_HOURS) adds

theorem minutes_pos : (0 : Int) < TIME_PERIOD_MINTUES := by decide

theorem hours_pos : (0 : Int) < TIME_PERIOD_HOURS := by decide

theorem Timely.left (h : Timely (adds ++ [tdp])) : Timely adds :=
  ⟨(List.pairwise_append.mp h.1).1, fun a ha => h.2 a (List.mem_append_left _ ha)⟩

theorem Timely.le (h : Timely (adds ++ [tdp])) : ∀ a ∈ adds, a.time ≤ tdp.time := fun a ha =>
  (List.pairwise_append.mp h.1).2.2 a ha tdp List.mem_cons_self

/-- The first point starts a minute and an hour. -/
theorem summarizes_first (h : Timely [tdp]) : Summarizes [tdp] (({} : TrafficHistory).addDataPoint tdp) tdp tdp := by
  have htime := h.2 tdp List.mem_cons_self
  have hnonneg : 0 ≤ tdp.time := by omega
  have hperiod : ∀ P, 0 < P → P ≤ 3600 * 1000 → periodOf P ⟨0, 0, 0⟩ < periodOf P tdp := by
    intro P hP hle
    simp only [TrafficDatapoint.time] at htime hnonneg
    have hzero : periodOf P ⟨0, 0, 0⟩ = 0 := by simp [periodOf]
    rw [hzero, periodOf, Int.tdiv_eq_ediv_of_nonneg hnonneg]
    exact (Int.le_ediv_iff_mul_le hP).mpr (by omega)
  have hone : ∀ P, 0 < P → kept P tdp [tdp] = [tdp] := fun P hP => kept_singleton hP hnonneg le_rfl
  have hm := hperiod TIME_PERIOD_MINTUES minutes_pos (by decide)
  have hh := hperiod TIME_PERIOD_HOURS hours_pos (by decide)
  have hadd : ({} : TrafficHistory).addDataPoint tdp = ⟨[tdp], [tdp], [tdp], some tdp, some tdp⟩ := by
    simp only [TrafficHistory.addDataPoint, TrafficHistory.removeAndAverageSeconds,
      TrafficHistory.removeAndAverageMinutes, Option.getD_some, gt_iff_lt, if_pos hm, if_pos hh, List.nil_append,
      hone _ minutes_pos, hone _ hours_pos]
  rw [hadd]
  exact ⟨rfl, rfl, rfl, rfl, (hone _ minutes_pos).symm, (hone _ hours_pos).symm, rfl⟩

/-- What a point does that starts no minute, a minute, or a minute and an hour. -/
theorem addDataPoint_eq (hm : h.lastSecondUsedForMinute = some m) (hmh : h.lastMinuteUsedForHours = some mh) :
    h.addDataPoint tdp =
      if periodOf TIME_PERIOD_MINTUES m < periodOf TIME_PERIOD_MINTUES tdp then
        if periodOf TIME_PERIOD_HOURS mh < periodOf TIME_PERIOD_HOURS tdp then
          { trafficHistorySeconds := kept TIME_PERIOD_MINTUES tdp (h.trafficHistorySeconds ++ [tdp])
            trafficHistoryMinutes := kept TIME_PERIOD_HOURS tdp (h.trafficHistoryMinutes ++ [tdp])
            trafficHistoryHours := h.trafficHistoryHours ++ [tdp]
            lastSecondUsedForMinute := some tdp
            lastMinuteUsedForHours := some tdp }
        else
          { h with
            trafficHistorySeconds := kept TIME_PERIOD_MINTUES tdp (h.trafficHistorySeconds ++ [tdp])
            trafficHistoryMinutes := h.trafficHistoryMinutes ++ [tdp]
            lastSecondUsedForMinute := some tdp }
      else { h with trafficHistorySeconds := h.trafficHistorySeconds ++ [tdp] } := by
  simp only [TrafficHistory.addDataPoint, TrafficHistory.removeAndAverageSeconds,
    TrafficHistory.removeAndAverageMinutes, hm, hmh, Option.getD_some, gt_iff_lt]
  split_ifs <;> rfl

theorem Summarizes.step (hs : Summarizes adds h m mh) (ht : Timely (adds ++ [tdp])) :
    ∃ m' mh', Summarizes (adds ++ [tdp]) (h.addDataPoint tdp) m' mh' := by
  have hnonneg := ht.left.nonneg
  have hm := mem_of_getLast_firstOf hs.minute
  have hmh := mem_of_getLast_firstOf hs.hour
  have htdp : 0 ≤ tdp.time := (hnonneg m hm).trans (ht.le m hm)
  have hfirsts : ∀ a ∈ firstOf (periodOf TIME_PERIOD_MINTUES) adds, 0 ≤ a.time :=
    fun a ha => hnonneg a ((firstOf_sublist adds).subset ha)
  have hminute := firstOf_concat_of_last (ht.periods minutes_pos) hs.minute
  have hhour := firstOf_concat_of_last (ht.periods hours_pos) hs.hour
  have hseconds : kept TIME_PERIOD_MINTUES tdp (h.trafficHistorySeconds ++ [tdp]) =
      kept TIME_PERIOD_MINTUES tdp (adds ++ [tdp]) := by
    rw [kept_concat minutes_pos htdp le_rfl, kept_concat minutes_pos htdp le_rfl, hs.seconds,
      kept_kept minutes_pos (hnonneg m hm) (ht.le m hm) hnonneg]
  rw [addDataPoint_eq hs.lastSecond hs.lastMinute]
  split_ifs at hminute hhour ⊢ with hnewMinute hnewHour hnewHour
  · -- The point starts a minute and an hour.
    refine ⟨tdp, tdp, rfl, rfl, by rw [hminute]; simp, by rw [hhour]; simp, hseconds, ?_, by rw [hhour, hs.hours]⟩
    rw [hminute, kept_concat hours_pos htdp le_rfl, kept_concat hours_pos htdp le_rfl, hs.minutes,
      kept_kept hours_pos (hnonneg mh hmh) (ht.le mh hmh) hfirsts]
  · refine ⟨tdp, mh, rfl, hs.lastMinute, by rw [hminute]; simp, by rw [hhour]; exact hs.hour, hseconds, ?_,
      by rw [hhour]; exact hs.hours⟩
    rw [hminute, kept_concat hours_pos (hnonneg mh hmh) (ht.le mh hmh), hs.minutes]
  · -- A point that starts an hour starts a minute.
    have hsame := le_antisymm (periodOf_mono minutes_pos (hnonneg m hm) (ht.le m hm)) (not_lt.mp hnewMinute)
    have hhours := hour_eq_of_minute_eq (hnonneg m hm) (ht.le m hm) hsame
    have hle := le_key_last (ht.left.periods hours_pos) hs.hour m hm
    rw [hhours] at hle
    exact absurd hnewHour (not_lt.mpr hle)
  · refine ⟨m, mh, hs.lastSecond, hs.lastMinute, by rw [hminute]; exact hs.minute, by rw [hhour]; exact hs.hour, ?_,
      by rw [hminute]; exact hs.minutes, by rw [hhour]; exact hs.hours⟩
    rw [kept_concat minutes_pos (hnonneg m hm) (ht.le m hm), hs.seconds]

theorem historyAfter_concat (adds : List TrafficDatapoint) (tdp : TrafficDatapoint) :
    historyAfter (adds ++ [tdp]) = (historyAfter adds).addDataPoint tdp := by
  rw [historyAfter, List.foldl_append]
  rfl

theorem exists_summarizes (hne : adds ≠ []) (ht : Timely adds) : ∃ m mh, Summarizes adds (historyAfter adds) m mh := by
  induction adds using List.reverseRecOn with
  | nil => exact absurd rfl hne
  | append_singleton adds tdp ih =>
      rw [historyAfter_concat]
      by_cases hnil : adds = []
      · subst adds
        exact ⟨tdp, tdp, summarizes_first ht⟩
      · obtain ⟨m, mh, hs⟩ := ih hnil ht.left
        exact hs.step ht

/-! ## The last point -/

theorem kept_self (l : List TrafficDatapoint) : kept timePeriod tdp (l ++ [tdp]) = kept timePeriod tdp l ++ [tdp] := by
  rw [kept, List.filter_append]
  exact congrArg (kept timePeriod tdp l ++ ·) (by simp [PERIODS_TO_KEEP])

theorem seconds_removeAndAverageMinutes (h : TrafficHistory) :
    (h.removeAndAverageMinutes tdp).trafficHistorySeconds = h.trafficHistorySeconds := by
  rw [TrafficHistory.removeAndAverageMinutes]
  split <;> rfl

theorem seconds_removeAndAverageSeconds (h : TrafficHistory) :
    (h.removeAndAverageSeconds tdp).trafficHistorySeconds = h.trafficHistorySeconds ∨
    (h.removeAndAverageSeconds tdp).trafficHistorySeconds = kept TIME_PERIOD_MINTUES tdp h.trafficHistorySeconds := by
  simp only [TrafficHistory.removeAndAverageSeconds]
  split
  · exact .inr (by rw [seconds_removeAndAverageMinutes])
  · exact .inl rfl

/-- The point that has been added stays, whatever the times are. -/
theorem getLast_addDataPoint (tdp : TrafficDatapoint) (h : TrafficHistory) :
    (h.addDataPoint tdp).trafficHistorySeconds.getLast? = some tdp := by
  rw [TrafficHistory.addDataPoint]
  cases h.lastSecondUsedForMinute
  all_goals
    dsimp only
    rcases @seconds_removeAndAverageSeconds tdp _ with hs | hs
    · rw [hs]; simp
    · rw [hs, kept_self]; simp

theorem getLast_historyAfter (adds : List TrafficDatapoint) :
    (historyAfter adds).trafficHistorySeconds.getLast? = adds.getLast? := by
  induction adds using List.reverseRecOn with
  | nil => rfl
  | append_singleton adds tdp _ =>
      rw [historyAfter_concat, getLast_addDataPoint]
      simp

end AllInSafe.Traffic
