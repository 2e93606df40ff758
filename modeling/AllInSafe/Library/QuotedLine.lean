import Mathlib.Tactic.Common

/-!
# The lexical structure of a line of parameters

Parameters are separated by space and may stand bare, in double quotes or in single quotes. Outside single
quotes a backslash escapes the next character; a `;` or `#` between two parameters starts a comment.
-/

namespace AllInSafe.Library.QuotedLine

/-- A character of a parameter; it is escaped when a backslash stands before it. -/
structure Piece where
  escaped : Bool
  char : Char
  deriving DecidableEq, Repr

/-- A parameter; it is closed when the line does not end inside it. -/
structure Param where
  pieces : List Piece
  closed : Bool
  deriving DecidableEq, Repr

def Param.text (p : Param) : List Char := p.pieces.map Piece.char

/-- Where a line stands: `esc` tells whether a backslash is pending. -/
inductive Place
  | between (esc : Bool)
  | bare (pieces : List Piece) (esc : Bool)
  | quoted (pieces : List Piece) (esc : Bool)
  | single (pieces : List Piece)
  deriving DecidableEq, Repr

/-- What the next character does. -/
inductive Move
  | comment
  | go (l : Place)
  | close (pieces : List Piece)
  deriving DecidableEq, Repr

def Place.next (space : Char → Bool) : Place → Char → Move
  | .between esc, c =>
      if esc = false ∧ c = '\\' then .go (.between true)
      else if space c then .go (.between false)
      else if c = ';' ∨ c = '#' then .comment
      else if esc = false ∧ c = '"' then .go (.quoted [] false)
      else if esc = false ∧ c = '\'' then .go (.single [])
      else .go (.bare [⟨esc, c⟩] false)
  | .bare ps esc, c =>
      if esc = false ∧ c = '\\' then .go (.bare ps true)
      else if esc = false ∧ space c then .close ps
      else .go (.bare (ps ++ [⟨esc, c⟩]) false)
  | .quoted ps esc, c =>
      if esc = false ∧ c = '\\' then .go (.quoted ps true)
      else if esc = false ∧ c = '"' then .close ps
      else .go (.quoted (ps ++ [⟨esc, c⟩]) false)
  | .single ps, c => if c = '\'' then .close ps else .go (.single (ps ++ [⟨false, c⟩]))

/-- What the end of the line makes of the present parameter. -/
def Place.finish : Place → List Param
  | .between _ => []
  | .bare ps esc => [⟨ps, !esc⟩]
  | .quoted ps _ | .single ps => [⟨ps, false⟩]

/-- The parameters of the rest of a line. -/
def lex (space : Char → Bool) (l : Place) : List Char → List Param
  | [] => l.finish
  | c :: cs =>
      match l.next space c with
      | .comment => []
      | .go l' => lex space l' cs
      | .close ps => ⟨ps, true⟩ :: lex space (.between false) cs

/-- The parameters of a line. -/
def params (space : Char → Bool) (line : List Char) : List Param := lex space (.between false) line

/-! ## Steps -/

variable {space : Char → Bool} {l l' : Place} {ps : List Piece} {c : Char} {cs : List Char}

theorem lex_comment (h : l.next space c = .comment) : lex space l (c :: cs) = [] := by rw [lex, h]

theorem lex_go (h : l.next space c = .go l') : lex space l (c :: cs) = lex space l' cs := by rw [lex, h]

theorem lex_close (h : l.next space c = .close ps) :
    lex space l (c :: cs) = ⟨ps, true⟩ :: lex space (.between false) cs := by rw [lex, h]

/-- What stands of the present parameter. -/
def Place.pieces : Place → List Piece
  | .between _ => []
  | .bare ps _ | .quoted ps _ | .single ps => ps

/-- A move keeps what stands of the present parameter, and adds to it the character or nothing. -/
theorem Place.pieces_go (h : l.next space c = .go l') :
    l'.pieces = l.pieces ∨ ∃ esc, l'.pieces = l.pieces ++ [⟨esc, c⟩] := by
  cases l <;> simp only [Place.next] at h <;> split_ifs at h <;> cases h <;> simp [Place.pieces]

theorem Place.pieces_close (h : l.next space c = .close ps) : l.pieces = ps := by
  cases l <;> simp only [Place.next] at h <;> split_ifs at h <;> cases h <;> rfl

theorem Place.next_inside (h : ∀ esc, l ≠ .between esc) (hn : l.next space c = .go l') :
    ∀ esc, l' ≠ .between esc := by
  cases l with
  | between esc => exact absurd rfl (h esc)
  | _ => simp only [Place.next] at hn; split_ifs at hn <;> cases hn <;> exact fun _ => by simp

/-- What stands of the present parameter is the beginning of the first parameter of the rest. -/
theorem lex_eq_cons (h : ∀ esc, l ≠ .between esc) :
    ∃ qs b rest, lex space l cs = ⟨l.pieces ++ qs, b⟩ :: rest := by
  induction cs generalizing l with
  | nil =>
      cases l with
      | between esc => exact absurd rfl (h esc)
      | _ => simp [lex, Place.finish, Place.pieces]
  | cons c cs ih =>
      cases hn : l.next space c with
      | comment =>
          cases l with
          | between esc => exact absurd rfl (h esc)
          | _ => simp only [Place.next] at hn; split_ifs at hn
      | go l' =>
          obtain ⟨qs, b, rest, hl⟩ := ih (Place.next_inside h hn)
          rw [lex_go hn, hl]
          rcases Place.pieces_go hn with hp | ⟨esc, hp⟩
          · exact ⟨qs, b, rest, by rw [hp]⟩
          · exact ⟨⟨esc, c⟩ :: qs, b, rest, by rw [hp]; simp⟩
      | close ps =>
          rw [lex_close hn, Place.pieces_close hn]
          exact ⟨[], true, lex space (.between false) cs, by simp⟩

theorem between_of_lex_eq_nil (h : lex space l cs = []) : ∃ esc, l = .between esc := by
  by_contra hl
  obtain ⟨qs, b, rest, he⟩ := @lex_eq_cons space l cs (fun esc he => hl ⟨esc, he⟩)
  rw [h] at he; cases he

/-- The present parameter has no more pieces than the parameters may have. -/
theorem length_pieces_le {size : Nat} (h : ∀ q ∈ lex space l cs, q.pieces.length ≤ size) :
    l.pieces.length ≤ size := by
  by_cases hl : ∃ esc, l = .between esc
  · obtain ⟨esc, rfl⟩ := hl
    exact Nat.zero_le size
  · obtain ⟨qs, b, rest, he⟩ := @lex_eq_cons space l cs (fun esc he => hl ⟨esc, he⟩)
    have hq := h ⟨l.pieces ++ qs, b⟩ (by rw [he]; simp)
    rw [List.length_append] at hq
    omega

/-- Every piece of the rest stands already or comes from the line. -/
theorem mem_lex {q : Param} {p : Piece} (hq : q ∈ lex space l cs) (hp : p ∈ q.pieces) :
    p ∈ l.pieces ∨ p.char ∈ cs := by
  induction cs generalizing l with
  | nil => cases l <;> simp_all [lex, Place.finish, Place.pieces]
  | cons c cs ih =>
      cases hn : l.next space c with
      | comment => rw [lex_comment hn] at hq; cases hq
      | go l' =>
          rw [lex_go hn] at hq
          rcases ih hq with h | h
          · rcases Place.pieces_go hn with he | ⟨esc, he⟩
            · exact .inl (he ▸ h)
            · rw [he, List.mem_append, List.mem_singleton] at h
              rcases h with h | rfl
              · exact .inl h
              · exact .inr (by simp)
          · exact .inr (List.mem_cons_of_mem c h)
      | close ps =>
          rw [lex_close hn, List.mem_cons] at hq
          rcases hq with rfl | hq
          · exact .inl (Place.pieces_close hn ▸ hp)
          · rcases ih hq with h | h
            · cases h
            · exact .inr (List.mem_cons_of_mem c h)

/-- Two notions of space that agree on the line give the same parameters. -/
theorem lex_congr {space' : Char → Bool} (h : ∀ c ∈ cs, space c = space' c) :
    lex space l cs = lex space' l cs := by
  induction cs generalizing l with
  | nil => rfl
  | cons c cs ih =>
      rw [List.forall_mem_cons] at h
      have hn : l.next space c = l.next space' c := by cases l <;> simp [Place.next, h.1]
      simp only [lex, hn, ih h.2]

/-! ## Bad escapes -/

/-- An escaped character that takes no backslash. -/
def Piece.Bad (space : Char → Bool) (p : Piece) : Prop :=
  p.escaped = true ∧ p.char ≠ '\\' ∧ p.char ≠ '"' ∧ space p.char = false

instance {p : Piece} : Decidable (p.Bad space) := inferInstanceAs (Decidable (_ ∧ _))

/-- Some parameter has an escaped character that takes no backslash. -/
def HasBad (space : Char → Bool) (l : List Param) : Prop := ∃ q ∈ l, ∃ p ∈ q.pieces, p.Bad space

instance {l : List Param} : Decidable (HasBad space l) := inferInstanceAs (Decidable (∃ q ∈ l, _))

@[simp] theorem not_hasBad_nil : ¬ HasBad space [] := by rintro ⟨q, hq, -⟩; cases hq

theorem hasBad_cons {q : Param} {l : List Param} :
    HasBad space (q :: l) ↔ (∃ p ∈ q.pieces, p.Bad space) ∨ HasBad space l := by simp [HasBad]

theorem exists_bad_concat {ps : List Piece} {q : Piece} (h : ∀ p ∈ ps, ¬ p.Bad space) :
    (∃ p ∈ ps ++ [q], p.Bad space) ↔ q.Bad space := by
  simp only [List.mem_append, List.mem_singleton, or_and_right, exists_or, exists_eq_left]
  exact or_iff_right (by rintro ⟨p, hp, hb⟩; exact h p hp hb)

/-- A bad escape that has been read stays. -/
theorem hasBad_lex {p : Piece} (hp : p ∈ l.pieces) (hbad : p.Bad space) : HasBad space (lex space l cs) := by
  have hin : ∀ esc, l ≠ .between esc := by rintro esc rfl; cases hp
  obtain ⟨qs, b, rest, h⟩ : ∃ qs b rest, lex space l cs = ⟨l.pieces ++ qs, b⟩ :: rest := lex_eq_cons hin
  rw [h, hasBad_cons]
  exact .inl ⟨p, List.mem_append_left qs hp, hbad⟩

theorem hasBad_congr {space' : Char → Bool} {qs : List Param}
    (h : ∀ q ∈ qs, ∀ p ∈ q.pieces, space p.char = space' p.char) : HasBad space qs ↔ HasBad space' qs := by
  refine exists_congr fun q => and_congr_right fun hq => exists_congr fun p => and_congr_right fun hp => ?_
  rw [Piece.Bad, Piece.Bad, h q hq p hp]

/-! ## Text without quotes and escapes -/

/-- Inside a bare parameter everything up to a space is taken as it stands. -/
theorem lex_bare {word : List Char} (h : ∀ c ∈ word, c ≠ '\\' ∧ space c = false) (cs : List Char) :
    lex space (.bare ps false) (word ++ cs) = lex space (.bare (ps ++ word.map (Piece.mk false)) false) cs := by
  induction word generalizing ps with
  | nil => simp
  | cons c word ih =>
      rw [List.forall_mem_cons] at h
      have hgo : (Place.bare ps false).next space c = .go (.bare (ps ++ [⟨false, c⟩]) false) := by
        simp [Place.next, h.1]
      rw [List.cons_append, lex_go hgo, ih h.2]
      simp

/-- A word that begins with none of the special characters starts a bare parameter. -/
theorem lex_word {word : List Char} (hne : word ≠ []) (h : ∀ c ∈ word, c ≠ '\\' ∧ space c = false)
    (hfirst : ∀ c ∈ word, c ≠ '"' ∧ c ≠ '\'' ∧ c ≠ ';' ∧ c ≠ '#') (cs : List Char) :
    lex space (.between false) (word ++ cs) = lex space (.bare (word.map (Piece.mk false)) false) cs := by
  obtain ⟨c, word, rfl⟩ := List.exists_cons_of_ne_nil hne
  rw [List.forall_mem_cons] at h hfirst
  have hgo : (Place.between false).next space c = .go (.bare [⟨false, c⟩] false) := by
    simp [Place.next, h.1, hfirst.1]
  rw [List.cons_append, lex_go hgo, lex_bare h.2]
  rfl

theorem lex_bare_space {c : Char} (hspace : space c = true) (hslash : c ≠ '\\') (cs : List Char) :
    lex space (.bare ps false) (c :: cs) = ⟨ps, true⟩ :: lex space (.between false) cs :=
  lex_close (by simp [Place.next, hspace, hslash])

/-- Inside single quotes everything is taken as it stands. -/
theorem lex_single {text : List Char} (h : '\'' ∉ text) (cs : List Char) :
    lex space (.single ps) (text ++ '\'' :: cs) =
      ⟨ps ++ text.map (Piece.mk false), true⟩ :: lex space (.between false) cs := by
  induction text generalizing ps with
  | nil => simp [lex, Place.next]
  | cons c text ih =>
      rw [List.mem_cons, not_or] at h
      have hgo : (Place.single ps).next space c = .go (.single (ps ++ [⟨false, c⟩])) := by
        simp [Place.next, Ne.symm h.1]
      rw [List.cons_append, lex_go hgo, ih h.2]
      simp

theorem lex_in_single {text : List Char} (hspace : space '\'' = false) (h : '\'' ∉ text) (cs : List Char) :
    lex space (.between false) ('\'' :: (text ++ '\'' :: cs)) =
      ⟨text.map (Piece.mk false), true⟩ :: lex space (.between false) cs := by
  have hgo : (Place.between false).next space '\'' = .go (.single []) := by simp [Place.next, hspace]
  rw [lex_go hgo, lex_single h]
  rfl

end AllInSafe.Library.QuotedLine
