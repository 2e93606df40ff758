import AllInSafe.Config.Lemmas.Escape

/-!
# Lines of plain words

A line of words that need no quotes, with single spaces between them, is read as these words.
-/

namespace AllInSafe.Config
open AllInSafe.Library AllInSafe.Library.QuotedLine

/-- Neither white space nor a character that has a meaning of its own. -/
def WordChar (c : Char) : Prop := c ∉ quotedChars ∧ space c = false

instance (c : Char) : Decidable (WordChar c) := inferInstanceAs (Decidable (_ ∧ _))

def Word (word : Str) : Prop := word ≠ [] ∧ ∀ c ∈ word, WordChar c

instance (word : Str) : Decidable (Word word) := inferInstanceAs (Decidable (_ ∧ _))

def unwords (words : List Str) : Str := List.intercalate [' '] words

@[simp] theorem unwords_nil : unwords [] = [] := rfl

@[simp] theorem unwords_singleton (word : Str) : unwords [word] = word := by simp [unwords, List.intercalate]

@[simp] theorem unwords_cons_cons (word word' : Str) (words : List Str) :
    unwords (word :: word' :: words) = word ++ ' ' :: unwords (word' :: words) := by
  simp [unwords, List.intercalate]

/-- The end of the line ends the last parameter, as a space would. -/
theorem lex_plainly_end {l : Place} (hl : Plainly l) {arg : Str} (harg : ∀ c ∈ arg, c ∉ quotedChars) :
    lex space l arg = lex space l (arg ++ [' ']) := by
  have hsp : space ' ' = true := by decide
  have hend : ∀ l, Plainly l → lex space l [] = lex space l [' '] ++ [] := fun l hl => by
    cases hl <;> simp [lex, Place.next, Place.finish, hsp]
  simpa using lex_plainly_congr hend hl harg

def wordParam (word : Str) : Param := ⟨word.map (Piece.mk false), true⟩

theorem Word.lex {word : Str} (h : Word word) : lex space (.between false) (word ++ [' ']) = [wordParam word] := by
  have hne : (Place.between false).pieces ++ word.map (Piece.mk false) ≠ [] := by simpa [Place.pieces] using h.1
  exact lex_plainly_eq .between (fun c hc => (h.2 c hc).1) (fun c hc => (h.2 c hc).2) hne

theorem params_unwords {words : List Str} (h : ∀ word ∈ words, Word word) :
    params space (unwords words) = words.map wordParam := by
  induction words with
  | nil => rfl
  | cons word words ih =>
      rw [List.forall_mem_cons] at h
      have hquoted : ∀ c ∈ word, c ∉ quotedChars := fun c hc => (h.1.2 c hc).1
      cases words with
      | nil => rw [unwords_singleton, params, lex_plainly_end .between hquoted, h.1.lex]; rfl
      | cons word' words =>
          rw [unwords_cons_cons, params, lex_plainly_append .between hquoted, h.1.lex, ← params, ih h.2]
          rfl

theorem mem_unwords {words : List Str} {c : Char} (h : c ∈ unwords words) : c = ' ' ∨ ∃ word ∈ words, c ∈ word := by
  induction words with
  | nil => cases h
  | cons word words ih =>
      cases words with
      | nil => exact .inr ⟨word, List.mem_cons_self, by simpa using h⟩
      | cons word' words =>
          rw [unwords_cons_cons, List.mem_append, List.mem_cons] at h
          rcases h with h | rfl | h
          · exact .inr ⟨word, List.mem_cons_self, h⟩
          · exact .inl rfl
          · rcases ih h with rfl | ⟨w, hw, hc⟩
            · exact .inl rfl
            · exact .inr ⟨w, List.mem_cons_of_mem word hw, hc⟩

theorem WordChar.ne {c d : Char} (h : WordChar c) (hd : d ∈ quotedChars ∨ space d = true) : c ≠ d := by
  rintro rfl
  rcases hd with hd | hd
  · exact h.1 hd
  · rw [h.2] at hd; cases hd

theorem parseline_unwords {words : List Str} (h : ∀ word ∈ words, Word word) : parseline (unwords words) = .ok words := by
  have hnul : ∀ c ∈ unwords words, c ≠ NUL := by
    intro c hc
    rcases mem_unwords hc with rfl | ⟨word, hword, hc⟩
    · decide
    · exact ((h word hword).2 c hc).ne (.inr (by decide))
  have hpieces : ∀ q ∈ words.map wordParam, q.closed = true ∧ ∀ p ∈ q.pieces, p.escaped = false := by
    intro q hq
    obtain ⟨word, -, rfl⟩ := List.mem_map.mp hq
    exact ⟨rfl, fun p hp => by obtain ⟨c, -, rfl⟩ := List.mem_map.mp hp; rfl⟩
  have hbad : ¬ HasBad space (words.map wordParam) := by
    rintro ⟨q, hq, p, hp, hescaped, -⟩
    rw [(hpieces q hq).2 p hp] at hescaped
    cases hescaped
  rw [parseline_eq hnul, params_unwords h, parselineResult, if_neg hbad,
    List.filter_eq_self.mpr fun q hq => (hpieces q hq).1, List.map_map]
  refine congrArg Except.ok ?_
  have htext : ∀ word, stutter none (wordParam word).pieces = word := fun word => by
    rw [stutter_eq_map fun p hp => by obtain ⟨c, -, rfl⟩ := List.mem_map.mp hp; rfl]
    simp [wordParam, Function.comp_def]
  simp [Function.comp_def, htext]

end AllInSafe.Config
