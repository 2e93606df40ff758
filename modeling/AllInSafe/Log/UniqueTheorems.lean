import AllInSafe.Library.Outcome
import AllInSafe.Log.BufferTheorems
import AllInSafe.Log.VpnStatus

/-!
# Unique insertion into the log buffer
-/

namespace AllInSafe.Log
open AllInSafe.Library

/-- The item of the buffer equals the new one. -/
def same (E : ArgEquals) (li item : LogItem) : Bool :=
  match item.equals E li with
  | .ok equal => equal
  | .error _ => false

/-- The equal items. -/
def count (E : ArgEquals) (li : LogItem) (logbuffer : List LogItem) : Nat := logbuffer.countP (same E li)

/-- The other items. -/
def others (E : ArgEquals) (li : LogItem) (logbuffer : List LogItem) : List LogItem :=
  logbuffer.filter fun item => !same E li item

/-- Exactly one item is equal to `li`, or none in a buffer that was trimmed. The others are as they were, without those
that trimming has removed. -/
structure InsertedUniquely (E : ArgEquals) (li : LogItem) (before after : List LogItem) : Prop where
  one : count E li after = 1 ∨ count E li after = 0 ∧ after.length < before.length
  rest : others E li after <:+ others E li before
  unchanged : before.length ≤ after.length → others E li after = others E li before

/-! ## The condition -/

/-- The new item is as late as the last one of the buffer. -/
def EndsBefore (li : LogItem) (logbuffer : List LogItem) : Prop :=
  ∃ last ∈ logbuffer.getLast?, last.logtime.toInt ≤ li.logtime.toInt

/-- The items in front of the first later one. -/
def lead (li : LogItem) (logbuffer : List LogItem) : List LogItem :=
  logbuffer.takeWhile fun item => item.logtime.toInt ≤ li.logtime.toInt

/-- The first later item and what follows it. -/
def late (li : LogItem) (logbuffer : List LogItem) : List LogItem :=
  logbuffer.dropWhile fun item => item.logtime.toInt ≤ li.logtime.toInt

/-- The items up to the first later one that stand in front of an equal one. -/
def compared (E : ArgEquals) (li : LogItem) : List LogItem → List LogItem
  | [] => []
  | item :: logbuffer =>
      if same E li item then []
      else if item.logtime.toInt > li.logtime.toInt then [item]
      else item :: compared E li logbuffer

/-- How many items trimming removes when one more is inserted. -/
def surplus (logbuffer : List LogItem) : Nat :=
  if logbuffer.length < MAXLOGENTRIES + MAXLOGENTRIES / 2 then 0 else logbuffer.length + 1 - MAXLOGENTRIES

/-- After an insertion behind `n` items, the trimmed buffer has not more than one equal item. -/
def StaysAlone (E : ArgEquals) (li : LogItem) (n : Nat) (logbuffer : List LogItem) : Prop :=
  if surplus logbuffer ≤ n then count E li (logbuffer.drop (surplus logbuffer)) = 0
  else count E li (logbuffer.drop (surplus logbuffer - 1)) ≤ 1

/-- Where the item belongs at the end, no equal item stays. Elsewhere the comparisons in front of an equal item throw
nothing, and an item that equals one in front of the first later one equals no other. -/
def InsertsUniquely (E : ArgEquals) (li : LogItem) (logbuffer : List LogItem) : Prop :=
  (EndsBefore li logbuffer ∧ StaysAlone E li logbuffer.length logbuffer) ∨
  (¬ EndsBefore li logbuffer ∧ (∀ item ∈ compared E li logbuffer, ∃ equal, item.equals E li = .ok equal) ∧
    ((∃ item ∈ lead li logbuffer, same E li item) ∧ count E li logbuffer = 1 ∨
      (∀ item ∈ lead li logbuffer, same E li item = false) ∧ StaysAlone E li (lead li logbuffer).length logbuffer))

variable {E : ArgEquals} {li item : LogItem} {logbuffer A C : List LogItem}

/-! ## Equality -/

theorem same_iff : same E li item = true ↔ item.equals E li = .ok true := by
  rw [same]
  cases item.equals E li <;> simp

theorem same_self (E : ArgEquals) (li : LogItem) : same E li li = true := by
  have hzip : ∀ as : List Arg, ((as.zip as).all fun p => E.equals p.1 p.2) = true := by
    intro as
    induction as with
    | nil => rfl
    | cons a as ih => simp [E.refl a, ih]
  have hargs : E.arrays li.mArgs li.mArgs = true := by cases li.mArgs <;> simp [ArgEquals.arrays, hzip]
  have hmessage : messagesEqual li.mMessage li.mMessage = .ok true := by cases li.mMessage <;> simp [messagesEqual]
  have hlevel : levelsEqual li.mLevel li.mLevel = .ok true := by cases li.mLevel <;> simp [levelsEqual]
  simp [same_iff, LogItem.equals, hargs, hmessage, hlevel, bind, Except.bind, pure, Except.pure]

theorem logtime_of_same (h : same E li item = true) : item.logtime = li.logtime := by
  rw [same_iff] at h
  cases hm : messagesEqual item.mMessage li.mMessage with
  | error e =>
      simp only [LogItem.equals, hm, bind, Except.bind, pure, Except.pure] at h
      split_ifs at h
      cases h
  | ok messages =>
      cases hl : levelsEqual item.mLevel li.mLevel with
      | error e =>
          simp only [LogItem.equals, hm, hl, bind, Except.bind, pure, Except.pure] at h
          split_ifs at h <;> cases h
      | ok levels =>
          simp only [LogItem.equals, hm, hl, bind, Except.bind, pure, Except.pure] at h
          split_ifs at h
          all_goals simp_all

/-! ## The loop -/

theorem lead_append_late : lead li logbuffer ++ late li logbuffer = logbuffer := List.takeWhile_append_dropWhile

theorem insertUniqueInLoop_throws (h : item ∈ compared E li logbuffer)
    (hthrows : ∀ equal, item.equals E li ≠ .ok equal) :
    ∃ e, insertUniqueInLoop E li logbuffer = .error e := by
  induction logbuffer with
  | nil => cases h
  | cons laterLogItem logbuffer ih =>
      rw [compared] at h
      rw [insertUniqueInLoop]
      split_ifs at h with hsame hlater
      · cases h
      · rw [List.mem_singleton] at h
        subst item
        cases he : laterLogItem.equals E li with
        | ok equal => exact absurd he (hthrows equal)
        | error e => exact ⟨e, rfl⟩
      · cases he : laterLogItem.equals E li with
        | error e => exact ⟨e, rfl⟩
        | ok equal =>
            have hequal : equal = false := by simpa [same, he] using hsame
            subst equal
            rcases List.mem_cons.mp h with rfl | h
            · exact absurd he (hthrows false)
            · obtain ⟨e, hloop⟩ := ih h
              exact ⟨e, by simp [hlater, hloop, bind, Except.bind]⟩

theorem insertUniqueInLoop_eq (h : ∀ item ∈ compared E li logbuffer, ∃ equal, item.equals E li = .ok equal) :
    insertUniqueInLoop E li logbuffer =
      .ok (if (lead li logbuffer).any (same E li) then logbuffer else lead li logbuffer ++ li :: late li logbuffer) := by
  induction logbuffer with
  | nil => rfl
  | cons laterLogItem logbuffer ih =>
      rw [compared] at h
      rw [insertUniqueInLoop]
      cases hsame : same E li laterLogItem with
      | true =>
          have htime := logtime_of_same hsame
          simp [same_iff.mp hsame, hsame, lead, htime, bind, Except.bind, pure, Except.pure]
      | false =>
          rw [hsame] at h
          simp only [Bool.false_eq_true, if_false] at h
          split_ifs at h with hlater
          · obtain ⟨equal, he⟩ := h laterLogItem List.mem_cons_self
            have hequal : equal = false := by simpa [same, he] using hsame
            subst equal
            simp [he, hlater, lead, late, Int.not_le.mpr hlater, bind, Except.bind, pure, Except.pure]
          · rw [List.forall_mem_cons] at h
            obtain ⟨equal, he⟩ := h.1
            have hequal : equal = false := by simpa [same, he] using hsame
            subst equal
            have hle := Int.not_lt.mp hlater
            simp only [he, hlater, ih h.2, lead, late, hle, List.takeWhile_cons, List.dropWhile_cons, List.any_cons,
              hsame, decide_true, if_true, if_false, bind, Except.bind, pure, Except.pure, Bool.false_eq_true,
              Bool.false_or]
            split_ifs with hany <;> simp [hany]

/-! ## Counting -/

@[simp] theorem count_append : count E li (A ++ C) = count E li A + count E li C := List.countP_append

@[simp] theorem count_cons_self : count E li (li :: C) = count E li C + 1 :=
  List.countP_cons_of_pos (same_self E li)

theorem others_insert : others E li (A ++ li :: C) = others E li (A ++ C) := by
  simp [others, same_self]

/-! ## Trimming -/

theorem trim_insert (h : (A ++ C).length ≤ MAXLOGENTRIES + MAXLOGENTRIES / 2) :
    trim (A ++ li :: C) = (A ++ li :: C).drop (surplus (A ++ C)) := by
  rw [trim, surplus]
  simp only [List.length_append, List.length_cons] at h ⊢
  split_ifs with h₁ h₂ h₂
  · omega
  · congr 1
  · rfl
  · omega

theorem drop_insert (n : Nat) : (A ++ li :: C).drop n =
    if n ≤ A.length then A.drop n ++ li :: C else (A ++ C).drop (n - 1) := by
  split_ifs with h
  · exact List.drop_append_of_le_length h
  · obtain ⟨k, rfl⟩ : ∃ k, n = A.length + k + 1 := ⟨n - A.length - 1, by omega⟩
    have hcons : A ++ li :: C = (A ++ [li]) ++ C := by simp
    have hlength : A.length + k + 1 = (A ++ [li]).length + k := by simp; omega
    rw [hcons, hlength, ← List.drop_drop, List.drop_left, List.length_append, List.length_singleton]
    rw [show A.length + 1 + k - 1 = A.length + k by omega, ← List.drop_drop, List.drop_left]

theorem surplus_cases (h : logbuffer.length ≤ MAXLOGENTRIES + MAXLOGENTRIES / 2) :
    surplus logbuffer = 0 ∨ 1 < surplus logbuffer ∧ surplus logbuffer < logbuffer.length := by
  rw [surplus]
  split_ifs with hroom
  · exact .inl rfl
  · simp only [MAXLOGENTRIES] at h hroom ⊢
    omega

/-- The insertion of the item between `A` and `C`, and what trimming makes of it. -/
theorem insertedUniquely_iff (h : (A ++ C).length ≤ MAXLOGENTRIES + MAXLOGENTRIES / 2) :
    InsertedUniquely E li (A ++ C) (trim (A ++ li :: C)) ↔ StaysAlone E li A.length (A ++ C) := by
  have hsurplus := surplus_cases h
  rw [trim_insert h, StaysAlone]
  have hrest : others E li ((A ++ li :: C).drop (surplus (A ++ C))) <:+ others E li (A ++ C) := by
    rw [← others_insert]
    exact (List.drop_suffix _ _).filter _
  have hunchanged : (A ++ C).length ≤ ((A ++ li :: C).drop (surplus (A ++ C))).length →
      others E li ((A ++ li :: C).drop (surplus (A ++ C))) = others E li (A ++ C) := by
    intro hlength
    simp only [List.length_drop, List.length_append, List.length_cons] at hlength hsurplus
    have hzero : surplus (A ++ C) = 0 := by omega
    rw [hzero, List.drop_zero, others_insert]
  have hone : InsertedUniquely E li (A ++ C) ((A ++ li :: C).drop (surplus (A ++ C))) ↔
      (count E li ((A ++ li :: C).drop (surplus (A ++ C))) = 1 ∨
        count E li ((A ++ li :: C).drop (surplus (A ++ C))) = 0 ∧
          ((A ++ li :: C).drop (surplus (A ++ C))).length < (A ++ C).length) :=
    ⟨fun hi => hi.one, fun hone => ⟨hone, hrest, hunchanged⟩⟩
  rw [hone, drop_insert]
  split_ifs with hstays
  · -- The new item stays.
    rw [List.drop_append_of_le_length hstays, count_append, count_append, count_cons_self]
    omega
  · have hlength : ((A ++ C).drop (surplus (A ++ C) - 1)).length < (A ++ C).length := by
      rw [List.length_drop]
      omega
    simp only [hlength, and_true]
    omega

theorem length_bufferAfter_le (calls : List LoggingCall) :
    (bufferAfter E calls).length ≤ MAXLOGENTRIES + MAXLOGENTRIES / 2 := by
  have htrim : ∀ logbuffer, (trim logbuffer).length ≤ MAXLOGENTRIES + MAXLOGENTRIES / 2 := fun logbuffer => by
    have hle := length_trim_le logbuffer
    simp only [MAXLOGENTRIES] at hle ⊢
    omega
  induction calls using List.reverseRecOn with
  | nil => exact Nat.zero_le _
  | append_singleton calls call ih =>
      rw [bufferAfter, List.foldl_append, ← bufferAfter, List.foldl_cons, List.foldl_nil]
      cases call with
      | newLogItem logItem cachedLine => exact htrim _
      | newLogItemIfUnique li =>
          rw [LoggingCall.apply, newLogItemIfUnique]
          cases insertUniqueByLogTime E li (bufferAfter E calls) with
          | ok inserted => exact htrim inserted
          | error e => exact ih

/-! ## The whole call -/

theorem insertUniqueByLogTime_of_endsBefore (h : EndsBefore li logbuffer) :
    insertUniqueByLogTime E li logbuffer = .ok (logbuffer ++ [li]) := by
  obtain ⟨last, hlast, hle⟩ := h
  rw [insertUniqueByLogTime, Option.mem_def.mp hlast]
  exact if_pos hle

theorem insertUniqueByLogTime_of_not (h : ¬ EndsBefore li logbuffer) :
    insertUniqueByLogTime E li logbuffer = insertUniqueInLoop E li logbuffer := by
  rw [insertUniqueByLogTime]
  cases hlast : logbuffer.getLast? with
  | none => rfl
  | some last => exact if_neg fun hle => h ⟨last, hlast, hle⟩

theorem insertedUniquely_self_iff : InsertedUniquely E li logbuffer logbuffer ↔ count E li logbuffer = 1 := by
  constructor
  · intro h
    rcases h.one with hone | ⟨-, hlt⟩
    · exact hone
    · exact absurd hlt (Nat.lt_irrefl _)
  · exact fun hone => ⟨.inl hone, List.suffix_refl _, fun _ => rfl⟩

theorem exists_trim_iff {inserted : List LogItem} {P : List LogItem → Prop} :
    (∃ logbuffer, (Except.ok inserted : Except Throwable (List LogItem)).map trim = .ok logbuffer ∧ P logbuffer) ↔
      P (trim inserted) := by
  simp [Except.map]

/-- After any mixture of logging calls, `newLogItemIfUnique` throws nothing and leaves exactly one equal item exactly
when the condition holds. -/
theorem newLogItemIfUnique_iff (calls : List LoggingCall) (li : LogItem) :
    (∃ logbuffer, newLogItemIfUnique E li (bufferAfter E calls) = .ok logbuffer ∧
      InsertedUniquely E li (bufferAfter E calls) logbuffer) ↔ InsertsUniquely E li (bufferAfter E calls) := by
  have hlength := @length_bufferAfter_le E calls
  generalize bufferAfter E calls = logbuffer at hlength ⊢
  rw [newLogItemIfUnique, InsertsUniquely]
  by_cases hends : EndsBefore li logbuffer
  · have hiff := @insertedUniquely_iff E li logbuffer [] (by rwa [List.append_nil])
    rw [List.append_nil] at hiff
    rw [insertUniqueByLogTime_of_endsBefore hends, exists_trim_iff, hiff]
    simp [hends]
  rw [insertUniqueByLogTime_of_not hends]
  by_cases hcompared : ∀ item ∈ compared E li logbuffer, ∃ equal, item.equals E li = .ok equal
  · rw [insertUniqueInLoop_eq hcompared, exists_trim_iff, or_iff_right fun h => hends h.1, and_iff_right hends,
      and_iff_right hcompared]
    cases hany : (lead li logbuffer).any (same E li) with
    | true =>
        have hfound := List.any_eq_true.mp hany
        have hnone : ¬ ∀ item ∈ lead li logbuffer, same E li item = false := fun hall => by
          obtain ⟨item, hitem, hsame⟩ := hfound
          rw [hall item hitem] at hsame
          cases hsame
        have htrim : trim logbuffer = logbuffer := if_neg (Nat.not_lt.mpr hlength)
        rw [if_pos rfl, htrim, insertedUniquely_self_iff, and_iff_right hfound, or_iff_left fun h => hnone h.1]
    | false =>
        have hall : ∀ item ∈ lead li logbuffer, same E li item = false := by simpa using hany
        have hnone : ¬ ∃ item ∈ lead li logbuffer, same E li item = true := fun ⟨item, hitem, hsame⟩ => by
          rw [hall item hitem] at hsame
          cases hsame
        have hiff := @insertedUniquely_iff E li (lead li logbuffer) (late li logbuffer) (by rwa [lead_append_late])
        rw [lead_append_late] at hiff
        rw [if_neg Bool.false_ne_true, hiff, or_iff_right fun h => hnone h.1, and_iff_right hall]
  · rw [not_forall] at hcompared
    obtain ⟨item, hthrows⟩ := hcompared
    rw [Classical.not_imp] at hthrows
    obtain ⟨e, hloop⟩ := insertUniqueInLoop_throws hthrows.1 (not_exists.mp hthrows.2)
    refine iff_of_false ?_ ?_
    · rintro ⟨after, hafter, -⟩
      rw [hloop] at hafter
      cases hafter
    · rintro (⟨h, -⟩ | ⟨-, hall, -⟩)
      · exact hends h
      · exact hthrows.2 (hall item hthrows.1)

def plainEquals : ArgEquals := ⟨fun a b => a = b, fun _ => decide_eq_true rfl⟩

/-- The item that every buffer starts with. -/
def mobileInfo : LogItem where
  mArgs := some [.string "Pixel 7", .string "panther", .string "google", .int 34, .string "arm64-v8a"]
  mRessourceId := 0x7f1000c5
  logtime := 1700000000000

/-- The last exit of the service process. -/
def exitReason : LogItem where
  mMessage := some "Last exit reason reported by Android for Service Process: ApplicationExitInfo(reason=10)"
  mLevel := some .DEBUG
  logtime := 1700000005000

/-- An error with a text of the resources. -/
def resourceError : LogItem where
  mRessourceId := 0x7f100152
  mLevel := some .ERROR
  logtime := 1700000001000

/-- An equal item is added at the end, and the comparison with an item of the resources throws. -/
theorem equal_item_added :
    newLogItemIfUnique plainEquals exitReason
        (bufferAfter plainEquals [.newLogItem mobileInfo false, .newLogItemIfUnique exitReason]) =
      .ok [mobileInfo, exitReason, exitReason] ∧
    newLogItemIfUnique plainEquals exitReason
        (bufferAfter plainEquals [.newLogItem mobileInfo false, .newLogItem resourceError false,
          .newLogItem { exitReason with logtime := 1700000009000 } false]) =
      .error .nullPointer := by
  decide +kernel

end AllInSafe.Log
