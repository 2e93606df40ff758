import AllInSafe.Library.Outcome
import AllInSafe.Config.Records
import AllInSafe.Library.Parts

/-!
# Texts put together

The lines and the records of a text that is written one part after the other.
-/

namespace AllInSafe.Config
open AllInSafe.Library

/-! ## Lines -/

/-- The text ends a line. -/
def Terminated (text : Str) : Prop := ∃ init last, text = init ++ [last] ∧ (last = '\n' ∨ last = '\r')

section

variable {broken skipLF : Bool} {cur text rest : Str}

/-- A text that ends a line is read on its own. -/
theorem readLinesFrom_append (h : Terminated text) (hskip : skipLF = true → cur = []) (rest : Str) :
    ∃ skip, readLinesFrom broken cur skipLF (text ++ rest) =
      readLinesFrom broken cur skipLF text ++ readLinesFrom broken [] skip rest := by
  obtain ⟨init, last, rfl, hlast⟩ := h
  induction init generalizing cur skipLF with
  | nil =>
      have hnil : ∀ skip, readLinesFrom broken [] skip [] = [] := fun skip => rfl
      rcases hlast with rfl | rfl
      · refine ⟨false, ?_⟩
        cases skipLF with
        | true => rw [hskip rfl]; rfl
        | false => simp [readLinesFrom]
      · exact ⟨true, by simp [readLinesFrom]⟩
  | cons c init ih =>
      rw [List.cons_append, List.cons_append, readLinesFrom, readLinesFrom]
      split
      case isTrue =>
          split
          case isTrue => exact ih (by simp)
          case isFalse =>
              obtain ⟨skip, hrest⟩ := @ih false [] (by simp)
              exact ⟨skip, by rw [hrest, List.cons_append]⟩
      case isFalse =>
          split
          case isTrue =>
              obtain ⟨skip, hrest⟩ := @ih true [] (by simp)
              exact ⟨skip, by rw [hrest, List.cons_append]⟩
          case isFalse => exact ih (by simp)

theorem readLinesFrom_ne_nil (h : Terminated text) : readLinesFrom broken cur false text ≠ [] := by
  obtain ⟨init, last, rfl, hlast⟩ := h
  induction init generalizing cur with
  | nil => rcases hlast with rfl | rfl <;> simp [readLinesFrom]
  | cons c init ih =>
      rw [List.cons_append, readLinesFrom]
      split
      case isTrue => exact List.cons_ne_nil _ _
      case isFalse =>
          split
          case isTrue => exact List.cons_ne_nil _ _
          case isFalse => exact ih

/-- A line without its terminator. -/
theorem readLinesFrom_line {line : Str} (hlf : '\n' ∉ line) (hcr : '\r' ∉ line)
    (hskip : skipLF = true → line ≠ []) (rest : Str) :
    readLinesFrom broken cur skipLF (line ++ '\n' :: rest) = (cur ++ line) :: readLinesFrom broken [] false rest := by
  induction line generalizing cur skipLF with
  | nil =>
      cases skipLF with
      | true => exact absurd rfl (hskip rfl)
      | false => simp [readLinesFrom]
  | cons c line ih =>
      rw [List.mem_cons, not_or] at hlf hcr
      rw [List.cons_append, readLinesFrom, if_neg (Ne.symm hlf.1), if_neg (Ne.symm hcr.1),
        ih hlf.2 hcr.2 (by simp), List.append_assoc]
      rfl

/-- The lines of a text without carriage returns are its parts between the newlines. -/
theorem readLinesFrom_parts (hcr : '\r' ∉ text) (rest : Str) :
    readLinesFrom broken cur false (text ++ '\n' :: rest) =
      (Str.parts (· = '\n') text).modifyHead (cur ++ ·) ++ readLinesFrom broken [] false rest := by
  induction text generalizing cur with
  | nil => simp [readLinesFrom, Str.parts]
  | cons c text ih =>
      rw [List.mem_cons, not_or] at hcr
      obtain ⟨p, ps, hparts⟩ := List.exists_cons_of_ne_nil (Str.parts_ne_nil (fun c => decide (c = '\n')) text)
      by_cases hc : c = '\n'
      · subst hc
        simp [readLinesFrom, Str.parts, ih hcr.2, hparts]
      · simp [readLinesFrom, Str.parts, ih hcr.2, hparts, hc, Ne.symm hcr.1]

end

/-- The parts with the newlines put back. -/
theorem flatMap_parts (text : Str) : (Str.parts (· = '\n') text).flatMap (· ++ ['\n']) = text ++ ['\n'] := by
  induction text with
  | nil => rfl
  | cons c text ih =>
      obtain ⟨p, ps, hparts⟩ := List.exists_cons_of_ne_nil (Str.parts_ne_nil (fun c => decide (c = '\n')) text)
      rw [hparts] at ih
      rw [Str.parts, hparts]
      by_cases hc : c = '\n'
      · rw [if_pos (by simpa using hc), List.flatMap_cons, ih, hc]
        rfl
      · rw [if_neg (by simpa using hc)]
        simp only [List.flatMap_cons, List.cons_append] at ih ⊢
        rw [ih]

/-! ## Records -/

section

variable {broken : Bool} {line : Str} {lines more args : List Str} {n skip lineno : Nat}

theorem readInline_append {argname content : Str} (h : readInline broken argname lines = .ok (content, n))
    (more : List Str) : readInline broken argname (lines ++ more) = .ok (content, n) ∧ n ≤ lines.length := by
  induction lines generalizing content n with
  | nil =>
      rw [readInline] at h
      split at h <;> cases h
  | cons line lines ih =>
      rw [readInline] at h
      rw [List.cons_append, readInline]
      split at h
      case isTrue hend =>
          cases h
          exact ⟨if_pos hend, Nat.succ_pos _⟩
      case isFalse hend =>
          obtain ⟨⟨inlinefile, m⟩, hrest, h⟩ := bind_eq_ok.mp h
          obtain ⟨hmore, hle⟩ := ih hrest
          cases h
          rw [if_neg hend, hmore]
          exact ⟨rfl, Nat.succ_le_succ hle⟩

theorem checkinlinefile_append {args' : List Str} (h : checkinlinefile broken args lines = .ok (args', n))
    (more : List Str) : checkinlinefile broken args (lines ++ more) = .ok (args', n) ∧ n ≤ lines.length := by
  cases args with
  | nil => cases h
  | cons arg0 args =>
      change (if _ then _ else _) = _ at h
      change (if _ then _ else _) = _ ∧ _
      split at h
      case isTrue hinline =>
          change (readInline broken _ lines >>= _) = _ at h
          rw [if_pos hinline]
          obtain ⟨⟨content, m⟩, hread, h⟩ := bind_eq_ok.mp h
          obtain ⟨hmore, hle⟩ := readInline_append hread more
          rw [hmore]
          cases h
          exact ⟨rfl, hle⟩
      case isFalse hinline =>
          cases h
          exact ⟨if_neg hinline, Nat.zero_le _⟩

theorem readOption_append {option : Option (List Str)} (h : readOption broken line lines = .ok (option, n))
    (more : List Str) : readOption broken line (lines ++ more) = .ok (option, n) ∧ n ≤ lines.length := by
  rw [readOption] at h ⊢
  cases hline : parseline line with
  | error e => rw [hline] at h; cases h
  | ok args =>
      rw [hline] at h
      cases args with
      | nil => cases h; exact ⟨rfl, Nat.zero_le _⟩
      | cons arg0 args =>
          dsimp only at h ⊢
          change (checkinlinefile broken _ lines >>= _) = _ at h
          obtain ⟨⟨args', m⟩, hcheck, h⟩ := bind_eq_ok.mp h
          obtain ⟨hmore, hle⟩ := checkinlinefile_append hcheck more
          rw [hmore]
          cases h
          exact ⟨rfl, hle⟩

theorem readRecord_append {record : Option Record} (h : readRecord broken line lines = .ok (record, n))
    (more : List Str) : readRecord broken line (lines ++ more) = .ok (record, n) ∧ n ≤ lines.length := by
  rw [readRecord] at h ⊢
  split at h
  case isTrue hmeta =>
      cases h
      exact ⟨if_pos hmeta, Nat.zero_le _⟩
  case isFalse hmeta =>
      obtain ⟨⟨option, m⟩, hoption, h⟩ := bind_eq_ok.mp h
      obtain ⟨hmore, hle⟩ := readOption_append hoption more
      rw [if_neg hmeta, hmore]
      cases h
      exact ⟨rfl, hle⟩

/-- The lines behind the ones that have been accepted are read on their own. -/
theorem readRecords_append {rs : List Record} (h : readRecords false lineno skip lines = .ok rs)
    (hskip : skip ≤ lines.length) :
    ∃ k, (skip < lines.length → 0 < k) ∧ ∀ more, readRecords false lineno skip (lines ++ more) =
      (readRecords false (lineno + k) 0 more).map (rs ++ ·) := by
  induction lines generalizing lineno skip rs with
  | nil =>
      obtain rfl : skip = 0 := Nat.le_zero.mp hskip
      cases h
      refine ⟨0, fun hlt => absurd hlt (Nat.lt_irrefl 0), fun more => ?_⟩
      rw [List.nil_append, Nat.add_zero]
      cases readRecords false lineno 0 more <;> rfl
  | cons line lines ih =>
      cases skip with
      | succ skip =>
          obtain ⟨k, hpos, hmore⟩ := ih h (Nat.le_of_succ_le_succ hskip)
          exact ⟨k, fun hlt => hpos (Nat.lt_of_succ_lt_succ hlt), hmore⟩
      | zero =>
          rw [readRecords_cons] at h
          obtain ⟨line', hline, h⟩ := bind_eq_ok.mp h
          obtain ⟨⟨record, n⟩, hrecord, h⟩ := bind_eq_ok.mp h
          dsimp only at h
          cases hrest : readRecords false (lineno + 1) n lines with
          | error e => rw [hrest] at h; cases h
          | ok rs' =>
              rw [hrest] at h
              cases h
              obtain ⟨k, -, hmore⟩ := ih hrest (readRecord_append hrecord []).2
              refine ⟨k + 1, fun _ => Nat.succ_pos k, fun more => ?_⟩
              rw [List.cons_append, readRecords_cons_ok hline (readRecord_append hrecord more).1, hmore,
                Nat.add_right_comm, Nat.add_assoc]
              cases readRecords false (lineno + (k + 1)) 0 more with
              | error e => rfl
              | ok rs'' => exact congrArg Except.ok (List.append_assoc _ _ _).symm

/-- Only the first line has another treatment. -/
theorem readRecords_lineno {lineno' : Nat} (h : 1 < lineno) (h' : 1 < lineno') (skip : Nat) (lines : List Str) :
    readRecords broken lineno skip lines = readRecords broken lineno' skip lines := by
  induction lines generalizing lineno lineno' skip with
  | nil => rfl
  | cons line lines ih =>
      cases skip with
      | succ skip => exact ih h h' skip
      | zero =>
          have hcheck : checkLine lineno line = checkLine lineno' line := by
            rw [checkLine, checkLine, if_neg (by omega), if_neg (by omega)]
          have hrest : ∀ n, readRecords broken (lineno + 1) n lines = readRecords broken (lineno' + 1) n lines :=
            ih (by omega) (by omega)
          simp only [readRecords_cons, hcheck, hrest]

end

end AllInSafe.Config
