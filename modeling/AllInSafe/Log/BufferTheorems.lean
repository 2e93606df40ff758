import AllInSafe.Library.StableSort
import AllInSafe.Log.VpnStatus

/-!
# The live log buffer
-/

namespace AllInSafe.Log
open AllInSafe.Library AllInSafe.Library.StableSort

def LogItem.getLogtime (li : LogItem) : Int := li.logtime.toInt

/-- The buffer after these items have been logged, none of them as a cached line. -/
def logged (items : List LogItem) : List LogItem := items.foldl (fun logbuffer li => newLogItem li false logbuffer) []

variable {logItem : LogItem} {logbuffer items : List LogItem}

/-! ## One item -/

theorem insertInLoop_eq : insertInLoop logItem logbuffer = place LogItem.getLogtime logItem logbuffer := by
  induction logbuffer with
  | nil => rfl
  | cons laterLogItem logbuffer ih =>
      rw [insertInLoop, ih, place, place, List.orderedInsert_cons]
      rfl

/-- The item at the end shows where a later one belongs. -/
theorem le_of_le_last {last : LogItem} (h : Sorted LogItem.getLogtime logbuffer) (hlast : logbuffer.getLast? = some last) :
    ∀ li ∈ logbuffer, li.getLogtime ≤ last.getLogtime := by
  obtain ⟨init, rfl⟩ := List.getLast?_eq_some_iff.mp hlast
  obtain ⟨-, -, hcross⟩ := List.pairwise_append.mp h
  intro li hli
  rcases List.mem_append.mp hli with hli | hli
  · exact hcross li hli last List.mem_cons_self
  · rw [List.mem_singleton.mp hli]

theorem insertLogItemByLogTime_eq (h : Sorted LogItem.getLogtime logbuffer) :
    insertLogItemByLogTime logItem logbuffer = place LogItem.getLogtime logItem logbuffer := by
  rw [insertLogItemByLogTime]
  cases hlast : logbuffer.getLast? with
  | none => exact insertInLoop_eq
  | some last =>
      dsimp only
      split_ifs with hle
      · exact (place_of_le fun li hli => (le_of_le_last h hlast li hli).trans hle).symm
      · exact insertInLoop_eq

theorem length_trim_le (logbuffer : List LogItem) : 2 * (trim logbuffer).length ≤ 3 * MAXLOGENTRIES := by
  rw [trim]
  split_ifs with h
  · rw [List.length_drop]
    simp only [MAXLOGENTRIES] at h ⊢
    omega
  · simp only [MAXLOGENTRIES] at h ⊢
    omega

theorem trim_keeps {L : List LogItem} (h : KeepsLast MAXLOGENTRIES logbuffer L) :
    KeepsLast MAXLOGENTRIES (trim logbuffer) L := by
  rw [trim]
  split_ifs
  · exact h.drop
  · exact h

/-! ## All items -/

theorem logged_concat (items : List LogItem) (logItem : LogItem) :
    logged (items ++ [logItem]) = trim (insertLogItemByLogTime logItem (logged items)) := by
  rw [logged, List.foldl_append]
  rfl

/-- The buffer holds the last items of the stable sort. -/
theorem logged_keeps (items : List LogItem) :
    KeepsLast MAXLOGENTRIES (logged items) (sort LogItem.getLogtime items) := by
  induction items using List.reverseRecOn with
  | nil => exact ⟨[], [], [], rfl, by simp [sort], List.Sublist.refl _, by simp [sort]⟩
  | append_singleton items logItem ih =>
      have hsorted : Sorted LogItem.getLogtime (logged items) := (sort_sorted items).sublist ih.sublist
      rw [logged_concat, insertLogItemByLogTime_eq hsorted, sort_concat]
      exact trim_keeps (ih.place (sort_sorted items) logItem)

/-- The buffer is sorted by log time with equal times in the order of insertion, has at most one and a half times
`MAXLOGENTRIES` items, and ends with the newest ones of all that have been logged. -/
theorem newLogItem_keeps_newest (items : List LogItem) :
    (logged items).Pairwise (fun a b => a.logtime.toInt ≤ b.logtime.toInt) ∧
    (∀ time, ((logged items).filter fun li => li.logtime.toInt = time).Sublist
      (items.filter fun li => li.logtime.toInt = time)) ∧
    2 * (logged items).length ≤ 3 * MAXLOGENTRIES ∧
    (items.mergeSort fun a b => a.logtime.toInt ≤ b.logtime.toInt).drop (items.length - MAXLOGENTRIES) <:+ logged items := by
  have hkeeps := logged_keeps items
  refine ⟨(sort_sorted items).sublist hkeeps.sublist, fun time => ?_, ?_, ?_⟩
  · have hkept : (ofKey LogItem.getLogtime time (logged items)).Sublist
        (ofKey LogItem.getLogtime time (sort LogItem.getLogtime items)) := hkeeps.sublist.filter _
    rw [ofKey_sort] at hkept
    exact hkept
  · cases items using List.reverseRecOn with
    | nil => exact Nat.zero_le _
    | append_singleton items logItem =>
        rw [logged_concat]
        exact length_trim_le _
  · have hsuffix := hkeeps.suffix
    rwa [(sort_perm items).length_eq] at hsuffix

end AllInSafe.Log
