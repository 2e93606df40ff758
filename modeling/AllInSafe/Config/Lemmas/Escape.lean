import AllInSafe.Config.Escape
import AllInSafe.Config.Lemmas.Parseline

/-!
# Reading back what `openVpnEscape` writes
-/

namespace AllInSafe.Config
open AllInSafe.Library AllInSafe.Library.QuotedLine

/-- The characters other than the newline for which `openVpnEscape` puts an argument in quotes. -/
def quotedChars : List Char := ['\\', '"', ' ', '#', ';', '\'']

/-- `openVpnEscape` puts the argument in quotes. -/
def NeedsQuotes (arg : Str) : Prop := arg = [] ∨ ∃ c ∈ arg, c ∈ quotedChars

instance {arg : Str} : Decidable (NeedsQuotes arg) := inferInstanceAs (Decidable (_ ∨ _))

/-- The argument has neither a backslash nor a double quote after its first character, and it has no white space
or is put in quotes. -/
def Survives (arg : Str) : Prop :=
  (∀ c ∈ arg.tail, c ≠ '\\' ∧ c ≠ '"') ∧ (NeedsQuotes arg ∨ ∀ c ∈ arg, isWhitespace c = false)

instance {arg : Str} : Decidable (Survives arg) := inferInstanceAs (Decidable (_ ∧ _))

/-! ## What is written -/

def escapeChar (c : Char) : Str := if c = '\\' then "\\\\" else if c = '"' then "\\\"" else [c]

theorem replace_replace_eq {arg : Str} (h : '\n' ∉ arg) :
    Str.replace '\n' "\\n" (Str.replace '"' "\\\"" (Str.replace '\\' "\\\\" arg)) = arg.flatMap escapeChar := by
  induction arg with
  | nil => rfl
  | cons c cs ih =>
      rw [List.mem_cons, not_or] at h
      have hc : c ≠ '\n' := fun he => h.1 he.symm
      simp only [Str.replace, List.flatMap_cons, List.flatMap_append] at ih ⊢
      rw [ih h.2]
      congr 1
      by_cases h₁ : c = '\\'
      · subst c; rfl
      · by_cases h₂ : c = '"'
        · subst c; rfl
        · simp [escapeChar, h₁, h₂, hc]

theorem length_flatMap_escapeChar (arg : Str) :
    (arg.flatMap escapeChar).length = arg.length + arg.countP (fun c => c = '\\' || c = '"') := by
  induction arg with
  | nil => rfl
  | cons c cs ih =>
      rw [List.flatMap_cons, List.length_append, ih, List.countP_cons, List.length_cons]
      by_cases h₁ : c = '\\'
      · subst c; simp [escapeChar]; omega
      · by_cases h₂ : c = '"'
        · subst c; simp [escapeChar]; omega
        · simp [escapeChar, h₁, h₂]; omega

theorem flatMap_escapeChar_of_not_mem {arg : Str} (h : ∀ c ∈ arg, c ≠ '\\' ∧ c ≠ '"') :
    arg.flatMap escapeChar = arg := by
  induction arg with
  | nil => rfl
  | cons c cs ih =>
      rw [List.forall_mem_cons] at h
      simp [List.flatMap_cons, ih h.2, escapeChar, h.1.1, h.1.2]

theorem flatMap_escapeChar_eq_self_iff {arg : Str} :
    arg.flatMap escapeChar = arg ↔ ∀ c ∈ arg, c ≠ '\\' ∧ c ≠ '"' := by
  refine ⟨fun h => ?_, flatMap_escapeChar_of_not_mem⟩
  have hlen := length_flatMap_escapeChar arg
  rw [h] at hlen
  have hzero : arg.countP (fun c => c = '\\' || c = '"') = 0 := by omega
  simpa using List.countP_eq_zero.mp hzero

theorem openVpnEscape_eq {arg : Str} (h : '\n' ∉ arg) :
    openVpnEscape arg = if NeedsQuotes arg then '"' :: arg.flatMap escapeChar ++ ['"'] else arg := by
  rw [openVpnEscape, replace_replace_eq h]
  by_cases he : arg.flatMap escapeChar = arg
  · have hq : NeedsQuotes arg ↔ ' ' ∈ arg ∨ '#' ∈ arg ∨ ';' ∈ arg ∨ arg = [] ∨ '\'' ∈ arg := by
      have hspecial := flatMap_escapeChar_eq_self_iff.mp he
      simp only [NeedsQuotes, quotedChars, List.mem_cons, List.not_mem_nil, or_false]
      grind
    rw [he]
    simp only [hq]
    split_ifs <;> simp_all
  · have hq : NeedsQuotes arg := by
      rw [flatMap_escapeChar_eq_self_iff] at he
      simp only [not_forall] at he
      obtain ⟨c, hc, hs⟩ := he
      exact .inr ⟨c, hc, by simp only [quotedChars, List.mem_cons]; tauto⟩
    simp [he, hq]

/-! ## What is read -/

/-- The pieces of an argument in quotes. -/
def quotedPieces (arg : Str) : List Piece := arg.map fun c => ⟨c = '\\' || c = '"', c⟩

theorem lex_quoted {sp : Char → Bool} {ps : List Piece} {arg rest : Str} :
    lex sp (.quoted ps false) (arg.flatMap escapeChar ++ '"' :: rest) =
      ⟨ps ++ quotedPieces arg, true⟩ :: lex sp (.between false) rest := by
  induction arg generalizing ps with
  | nil => simp [lex, Place.next, quotedPieces]
  | cons c cs ih =>
      have hpieces : ps ++ quotedPieces (c :: cs) = ps ++ [⟨c = '\\' || c = '"', c⟩] ++ quotedPieces cs := by
        simp [quotedPieces]
      rw [List.flatMap_cons, List.append_assoc, hpieces, ← ih]
      by_cases h₁ : c = '\\'
      · subst c; simp [escapeChar, lex, Place.next]
      · by_cases h₂ : c = '"'
        · subst c; simp [escapeChar, lex, Place.next]
        · simp [escapeChar, h₁, h₂, lex, Place.next]

theorem lex_in_quotes {sp : Char → Bool} (hsp : sp '"' = false) {arg rest : Str} :
    lex sp (.between false) ('"' :: arg.flatMap escapeChar ++ ['"'] ++ rest) =
      ⟨quotedPieces arg, true⟩ :: lex sp (.between false) rest := by
  have hq : (Place.between false).next sp '"' = .go (.quoted [] false) := by simp [Place.next, hsp]
  rw [List.append_assoc, List.cons_append, lex_go hq]
  exact lex_quoted

/-! ### Arguments without quotes -/

/-- The places at which the characters of an argument without quotes are read. -/
inductive Plainly : Place → Prop
  | between : Plainly (.between false)
  | bare {ps : List Piece} (h : ∀ p ∈ ps, p.escaped = false ∧ space p.char = false) : Plainly (.bare ps false)

/-- A character that needs no quotes separates two arguments or is stored. -/
theorem Plainly.next {l : Place} {c : Char} (hl : Plainly l) (hc : c ∉ quotedChars) :
    (space c = true ∧ (l.next space c = .go (.between false) ∧ l.pieces = [] ∨ l.next space c = .close l.pieces)) ∨
    (space c = false ∧ l.next space c = .go (.bare (l.pieces ++ [⟨false, c⟩]) false) ∧
      Plainly (.bare (l.pieces ++ [⟨false, c⟩]) false)) := by
  simp only [quotedChars, List.mem_cons, not_or] at hc
  cases hl with
  | between =>
      cases h : space c with
      | true => simp [Place.next, hc, h, Place.pieces]
      | false => exact .inr ⟨rfl, by simp [Place.next, hc, h, Place.pieces], .bare (by simp [Place.pieces, h])⟩
  | bare hps =>
      cases h : space c with
      | true => simp [Place.next, hc, h, Place.pieces]
      | false =>
          refine .inr ⟨rfl, by simp [Place.next, hc, h, Place.pieces], .bare ?_⟩
          rw [List.forall_mem_append]
          exact ⟨hps, by simp [h]⟩

/-- What follows the characters of an argument decides what its parameters end with. -/
theorem lex_plainly_congr {rest rest' : Str} {qs : List Param}
    (h : ∀ l, Plainly l → lex space l rest = lex space l rest' ++ qs) {l : Place} (hl : Plainly l) {arg : Str}
    (harg : ∀ c ∈ arg, c ∉ quotedChars) : lex space l (arg ++ rest) = lex space l (arg ++ rest') ++ qs := by
  induction arg generalizing l with
  | nil => exact h l hl
  | cons c cs ih =>
      rw [List.forall_mem_cons] at harg
      rw [List.cons_append, List.cons_append]
      rcases hl.next harg.1 with ⟨-, ⟨hn, -⟩ | hn⟩ | ⟨-, hn, hl'⟩
      · rw [lex_go hn, lex_go hn, ih .between harg.2]
      · rw [lex_close hn, lex_close hn, ih .between harg.2, List.cons_append]
      · rw [lex_go hn, lex_go hn, ih hl' harg.2]

/-- The space after an argument ends its last parameter. -/
theorem lex_plainly_append {l : Place} (hl : Plainly l) {arg rest : Str} (harg : ∀ c ∈ arg, c ∉ quotedChars) :
    lex space l (arg ++ ' ' :: rest) = lex space l (arg ++ [' ']) ++ lex space (.between false) rest := by
  have hsp : space ' ' = true := by decide
  refine lex_plainly_congr (fun l hl => ?_) hl harg
  cases hl <;> simp [lex, Place.next, Place.finish, hsp]

theorem Plainly.pieces {l : Place} (hl : Plainly l) : ∀ p ∈ l.pieces, p.escaped = false ∧ space p.char = false := by
  cases hl with
  | between => exact fun p hp => absurd hp List.not_mem_nil
  | bare h => exact h

theorem mem_lex_plainly {l : Place} (hl : Plainly l) {arg : Str} (harg : ∀ c ∈ arg, c ∉ quotedChars) :
    ∀ q ∈ lex space l (arg ++ [' ']), q.closed = true ∧ ∀ p ∈ q.pieces, p.escaped = false ∧ space p.char = false := by
  induction arg generalizing l with
  | nil =>
      have hsp : space ' ' = true := by decide
      cases hl with
      | between => simp [lex, Place.next, Place.finish, hsp]
      | bare h => simpa [lex, Place.next, Place.finish, hsp] using h
  | cons c cs ih =>
      rw [List.forall_mem_cons] at harg
      rw [List.cons_append]
      rcases hl.next harg.1 with ⟨-, ⟨hn, -⟩ | hn⟩ | ⟨-, hn, hl'⟩
      · rw [lex_go hn]; exact ih .between harg.2
      · rw [lex_close hn, List.forall_mem_cons]
        exact ⟨⟨rfl, hl.pieces⟩, ih .between harg.2⟩
      · rw [lex_go hn]; exact ih hl' harg.2

/-- Without white space the argument is one parameter. -/
theorem lex_plainly_eq {l : Place} (hl : Plainly l) {arg : Str} (harg : ∀ c ∈ arg, c ∉ quotedChars)
    (hsp : ∀ c ∈ arg, space c = false) (hne : l.pieces ++ arg.map (Piece.mk false) ≠ []) :
    lex space l (arg ++ [' ']) = [⟨l.pieces ++ arg.map (Piece.mk false), true⟩] := by
  induction arg generalizing l with
  | nil =>
      have hsp : space ' ' = true := by decide
      cases hl with
      | between => exact absurd rfl hne
      | bare h => simp [lex, Place.next, Place.finish, hsp, Place.pieces]
  | cons c cs ih =>
      rw [List.forall_mem_cons] at harg hsp
      rcases hl.next harg.1 with ⟨hc, -⟩ | ⟨-, hn, hl'⟩
      · rw [hsp.1] at hc; cases hc
      · rw [List.cons_append, lex_go hn, ih hl' harg.2 hsp.2 (by simp [Place.pieces])]
        simp [Place.pieces]

/-! ## One argument -/

/-- The parameters that an argument is read back as. -/
def argParams (arg : Str) : List Param := lex space (.between false) (openVpnEscape arg ++ [' '])

theorem lex_openVpnEscape {arg rest : Str} (h : '\n' ∉ arg) :
    lex space (.between false) (openVpnEscape arg ++ ' ' :: rest) =
      argParams arg ++ lex space (.between false) rest := by
  have hsp : (Place.between false).next space ' ' = .go (.between false) := by decide
  rw [argParams, openVpnEscape_eq h]
  split
  · rw [lex_in_quotes (by decide), lex_in_quotes (by decide), lex_go hsp, lex_go hsp]
    rfl
  · rename_i hn
    exact lex_plainly_append .between fun c hc hm => hn (.inr ⟨c, hc, hm⟩)

theorem argParams_quoted {arg : Str} (h : '\n' ∉ arg) (hq : NeedsQuotes arg) :
    argParams arg = [⟨quotedPieces arg, true⟩] := by
  rw [argParams, openVpnEscape_eq h, if_pos hq, lex_in_quotes (by decide)]
  rfl

/-- No escape is refused, and every parameter is closed. -/
theorem mem_argParams {arg : Str} (h : '\n' ∉ arg) :
    ∀ q ∈ argParams arg, q.closed = true ∧ ∀ p ∈ q.pieces, ¬ p.Bad space := by
  by_cases hq : NeedsQuotes arg
  · rw [argParams_quoted h hq]
    simp only [List.mem_singleton, forall_eq, quotedPieces, List.mem_map, true_and]
    rintro p ⟨c, -, rfl⟩ ⟨he, h₁, h₂, -⟩
    simp_all
  · rw [argParams, openVpnEscape_eq h, if_neg hq]
    intro q hqm
    obtain ⟨hc, hp⟩ := mem_lex_plainly .between (fun c hc hm => hq (.inr ⟨c, hc, hm⟩)) q hqm
    exact ⟨hc, fun p hpm hb => by have he := hb.1; rw [(hp p hpm).1] at he; cases he⟩

/-- The strings that an argument is read back as. -/
def argTexts (arg : Str) : List Str := (argParams arg).map fun q => stutter none q.pieces

theorem stutter_quotedPieces_eq_iff {arg : Str} :
    stutter none (quotedPieces arg) = arg ↔ ∀ c ∈ arg.tail, c ≠ '\\' ∧ c ≠ '"' := by
  have htext : Param.text ⟨quotedPieces arg, true⟩ = arg := by
    simp [Param.text, quotedPieces, Function.comp_def]
  have hlate := stutter_eq_text_iff ⟨quotedPieces arg, true⟩
  rw [htext] at hlate
  rw [hlate]
  cases arg <;> simp [LateEscape, quotedPieces]

theorem mem_stutter {prev : Option Char} {ps : List Piece} {p : Piece} (hp : p ∈ ps) :
    p.char ∈ stutter prev ps := by
  induction ps generalizing prev with
  | nil => cases hp
  | cons q ps ih =>
      rcases List.mem_cons.mp hp with rfl | hp
      · simp [stutter]
      · simp [stutter, ih hp]

/-- A string that is read back is not one that would be written without quotes despite its white space. -/
theorem mem_argTexts {arg t : Str} (h : '\n' ∉ arg) (hnul : NUL ∉ arg) (ht : t ∈ argTexts arg) :
    NeedsQuotes t ∨ ∀ c ∈ t, isWhitespace c = false := by
  by_cases hq : NeedsQuotes arg
  · left
    rw [argTexts, argParams_quoted h hq] at ht
    simp only [List.map_cons, List.map_nil, List.mem_singleton] at ht
    subst ht
    rcases hq with rfl | ⟨c, hc, hm⟩
    · exact .inl rfl
    · have hp : ⟨c = '\\' || c = '"', c⟩ ∈ quotedPieces arg := List.mem_map.mpr ⟨c, hc, rfl⟩
      exact .inr ⟨c, mem_stutter hp, hm⟩
  · right
    rw [argTexts, argParams, openVpnEscape_eq h, if_neg hq, List.mem_map] at ht
    obtain ⟨q, hqm, rfl⟩ := ht
    obtain ⟨-, hp⟩ := mem_lex_plainly .between (fun c hc hm => hq (.inr ⟨c, hc, hm⟩)) q hqm
    rw [stutter_eq_map fun p hpm => (hp p hpm).1]
    intro c hc
    obtain ⟨p, hpm, rfl⟩ := List.mem_map.mp hc
    have hs := (hp p hpm).2
    rw [space, Bool.or_eq_false_iff] at hs
    exact hs.1

theorem argTexts_eq_singleton_iff {arg : Str} (h : '\n' ∉ arg) (hnul : NUL ∉ arg)
    (hq : NeedsQuotes arg ∨ ∀ c ∈ arg, isWhitespace c = false) :
    ∃ t, argTexts arg = [t] ∧ (t = arg ↔ Survives arg) := by
  by_cases hq' : NeedsQuotes arg
  · refine ⟨stutter none (quotedPieces arg), by rw [argTexts, argParams_quoted h hq']; rfl, ?_⟩
    rw [stutter_quotedPieces_eq_iff, Survives]
    exact (and_iff_left hq).symm
  · have hsp := hq.resolve_left hq'
    refine ⟨arg, ?_, iff_of_true rfl ⟨?_, .inr hsp⟩⟩
    · have hspace : ∀ c ∈ arg, space c = false := fun c hc => by
        have hc0 : c ≠ NUL := by rintro rfl; exact hnul hc
        simp [space, hsp c hc, hc0]
      have hne : arg ≠ [] := fun he => hq' (.inl he)
      rw [argTexts, argParams, openVpnEscape_eq h, if_neg hq', lex_plainly_eq .between
        (fun c hc hm => hq' (.inr ⟨c, hc, hm⟩)) hspace (by simpa [Place.pieces] using hne)]
      have htext := @stutter_eq_map none (arg.map (Piece.mk false)) (by simp)
      simpa [Place.pieces, Function.comp_def] using htext
    · intro c hc
      have hm : c ∉ quotedChars := fun hm => hq' (.inr ⟨c, List.mem_of_mem_tail hc, hm⟩)
      simp only [quotedChars, List.mem_cons, not_or] at hm
      exact ⟨hm.1, hm.2.1⟩

/-! ## One option -/

theorem lex_flatMap_openVpnEscape {args : List Str} (h : ∀ arg ∈ args, '\n' ∉ arg) :
    params space (args.flatMap fun arg => openVpnEscape arg ++ [' ']) = args.flatMap argParams := by
  rw [params]
  induction args with
  | nil => rfl
  | cons arg args ih =>
      rw [List.forall_mem_cons] at h
      rw [List.flatMap_cons, List.flatMap_cons, List.append_assoc, List.singleton_append,
        lex_openVpnEscape h.1, ih h.2]

theorem mem_openVpnEscape {arg : Str} {c : Char} (h : '\n' ∉ arg) (hc : c ∈ openVpnEscape arg) :
    c ∈ arg ∨ c = '\\' ∨ c = '"' := by
  rw [openVpnEscape_eq h] at hc
  split at hc
  · simp only [List.cons_append, List.mem_cons, List.mem_append, List.mem_flatMap, List.not_mem_nil, or_false] at hc
    rcases hc with rfl | ⟨d, hd, hm⟩ | rfl
    · simp
    · rw [escapeChar] at hm
      split_ifs at hm <;> simp_all
    · simp
  · exact .inl hc

/-- What `parseline` returns for a list of arguments that were escaped. -/
theorem parseline_flatMap_openVpnEscape {args : List Str} (h : ∀ arg ∈ args, '\n' ∉ arg ∧ NUL ∉ arg) :
    parseline (args.flatMap fun arg => openVpnEscape arg ++ [' ']) = .ok (args.flatMap argTexts) := by
  have hnul : ∀ c ∈ args.flatMap fun arg => openVpnEscape arg ++ [' '], c ≠ NUL := by
    intro c hc
    obtain ⟨arg, ha, hc⟩ := List.mem_flatMap.mp hc
    rcases List.mem_append.mp hc with hc | hc
    · rcases mem_openVpnEscape (h arg ha).1 hc with hc | rfl | rfl
      · rintro rfl; exact (h arg ha).2 hc
      · decide
      · decide
    · rw [List.mem_singleton] at hc; subst hc; decide
  have hall : ∀ q ∈ args.flatMap argParams, q.closed = true ∧ ∀ p ∈ q.pieces, ¬ p.Bad space := by
    intro q hq
    obtain ⟨arg, ha, hq⟩ := List.mem_flatMap.mp hq
    exact mem_argParams (h arg ha).1 q hq
  have hbad : ¬ HasBad space (args.flatMap argParams) := by
    rintro ⟨q, hq, p, hp, hb⟩
    exact (hall q hq).2 p hp hb
  rw [parseline_eq hnul, lex_flatMap_openVpnEscape fun arg ha => (h arg ha).1, parselineResult, if_neg hbad,
    List.filter_eq_self.mpr fun q hq => (hall q hq).1, List.map_flatMap]
  rfl

/-- When every white space is in quotes, each argument gives one string. -/
theorem flatMap_argTexts_eq_iff_of_quoted {args : List Str} (h : ∀ arg ∈ args, '\n' ∉ arg ∧ NUL ∉ arg)
    (hq : ∀ arg ∈ args, NeedsQuotes arg ∨ ∀ c ∈ arg, isWhitespace c = false) :
    args.flatMap argTexts = args ↔ ∀ arg ∈ args, Survives arg := by
  induction args with
  | nil => simp
  | cons arg args ih =>
      rw [List.forall_mem_cons] at h hq
      obtain ⟨t, ht, hs⟩ := argTexts_eq_singleton_iff h.1.1 h.1.2 hq.1
      rw [List.flatMap_cons, ht, List.singleton_append, List.cons.injEq, List.forall_mem_cons, hs, ih h.2 hq.2]

theorem flatMap_argTexts_eq_iff {args : List Str} (h : ∀ arg ∈ args, '\n' ∉ arg ∧ NUL ∉ arg) :
    args.flatMap argTexts = args ↔ ∀ arg ∈ args, Survives arg := by
  constructor
  · intro he
    refine (flatMap_argTexts_eq_iff_of_quoted h ?_).mp he
    -- Every argument is among the strings read back, so its white space is in quotes.
    intro arg ha
    rw [← he] at ha
    obtain ⟨b, hb, ht⟩ := List.mem_flatMap.mp ha
    exact mem_argTexts (h b hb).1 (h b hb).2 ht
  · intro hs
    exact (flatMap_argTexts_eq_iff_of_quoted h fun arg ha => (hs arg ha).2).mpr hs

end AllInSafe.Config
