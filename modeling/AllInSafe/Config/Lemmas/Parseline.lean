import AllInSafe.Config.Tokenizer
import AllInSafe.Library.QuotedLine

/-!
# What `parseline` makes of a line

It returns the closed parameters of the line, each with the characters before its escape backslashes twice.
-/

namespace AllInSafe.Config
open AllInSafe.Library AllInSafe.Library.QuotedLine

/-- The text that `parseline` collects of a parameter after the character `prev`. -/
def stutter : Option Char → List Piece → Str
  | _, [] => []
  | prev, p :: ps => (if p.escaped then prev.toList else []) ++ p.char :: stutter (some p.char) ps

def lastChar (ps : List Piece) : Option Char := ps.getLast?.map Piece.char

/-- The variables of `parseline` after the parameters `parsed`, at the place `l`. -/
def parselineAt (parsed : List Str) : Place → Parseline
  | .between esc => { parameters := parsed, backslash := esc }
  | .bare ps esc => collecting .reading_unquoted ps esc
  | .quoted ps esc => collecting .reading_quoted ps esc
  | .single ps => collecting .readin_single_quote ps false
where
  collecting (state : linestate) (ps : List Piece) (esc : Bool) : Parseline :=
    { parameters := parsed, state := state, backslash := esc, out := (lastChar ps).getD NUL
      currentarg := stutter none ps ++ if esc then (lastChar ps).toList else [] }

/-! ## The collected text -/

theorem stutter_append {prev : Option Char} {ps qs : List Piece} :
    stutter prev (ps ++ qs) = stutter prev ps ++ stutter ((lastChar ps).or prev) qs := by
  induction ps generalizing prev with
  | nil => simp [stutter, lastChar]
  | cons p ps ih =>
      have hlast : (lastChar (p :: ps)).or prev = (lastChar ps).or (some p.char) := by
        cases h : ps.getLast? <;> simp [lastChar, List.getLast?_cons, h]
      simp [stutter, ih, hlast]

theorem lastChar_append_singleton {ps : List Piece} {p : Piece} : lastChar (ps ++ [p]) = some p.char := by
  simp [lastChar]

theorem lastChar_ne_NUL {ps : List Piece} (h : ∀ p ∈ ps, p.char ≠ NUL) : ∀ c ∈ lastChar ps, c ≠ NUL := by
  intro c hc
  obtain ⟨p, hp, rfl⟩ := Option.map_eq_some_iff.mp hc
  exact h p (List.mem_of_getLast? hp)

/-- An escape backslash stands after a character of the parameter. -/
def LateEscape (q : Param) : Prop := ∃ p ∈ q.pieces.tail, p.escaped = true

instance {q : Param} : Decidable (LateEscape q) := inferInstanceAs (Decidable (∃ p ∈ q.pieces.tail, _))

theorem length_stutter (d : Char) (ps : List Piece) :
    (stutter (some d) ps).length = ps.length + ps.countP Piece.escaped := by
  induction ps generalizing d with
  | nil => rfl
  | cons p ps ih => cases h : p.escaped <;> simp [stutter, ih, h] <;> omega

theorem stutter_eq_map {prev : Option Char} {ps : List Piece} (h : ∀ p ∈ ps, p.escaped = false) :
    stutter prev ps = ps.map Piece.char := by
  induction ps generalizing prev with
  | nil => rfl
  | cons p ps ih =>
      rw [List.forall_mem_cons] at h
      simp [stutter, h.1, ih h.2]

/-- The text of a parameter is collected unchanged exactly when no escape comes late. -/
theorem stutter_eq_text_iff (q : Param) : stutter none q.pieces = q.text ↔ ¬ LateEscape q := by
  cases hp : q.pieces with
  | nil => simp [stutter, Param.text, LateEscape, hp]
  | cons p ps =>
      have hlate : LateEscape q ↔ ∃ r ∈ ps, r.escaped = true := by simp [LateEscape, hp]
      have hnone : stutter none (p :: ps) = p.char :: stutter (some p.char) ps := by simp [stutter]
      rw [hlate, hnone, Param.text, hp, List.map_cons, List.cons.injEq]
      constructor
      · rintro ⟨-, h⟩ ⟨r, hr, he⟩
        have hlen := congrArg List.length h
        rw [length_stutter, List.length_map] at hlen
        have hpos : 0 < ps.countP Piece.escaped := List.countP_pos_iff.mpr ⟨r, hr, he⟩
        omega
      · exact fun h => ⟨rfl, stutter_eq_map fun r hr => by simpa using fun he => h ⟨r, hr, he⟩⟩

/-! ## One iteration -/

variable {parsed : List Str} {state : linestate} {l l' : Place} {ps : List Piece} {esc : Bool} {c : Char}

theorem parseline_step_comment (h : l.next space c = .comment) :
    Parseline.step (parselineAt parsed l) c = .stop (parselineAt parsed l) := by
  cases l <;> simp only [Place.next] at h <;> split_ifs at h
  simp_all [Parseline.step, parselineAt, Parseline.read]

theorem parseline_step_close (h : l.next space c = .close ps) :
    Parseline.step (parselineAt parsed l) c =
      .next (parselineAt (parsed ++ [stutter none ps]) (.between false)) := by
  cases l <;> simp only [Place.next] at h <;> split_ifs at h <;> cases h <;>
    simp_all [Parseline.step, parselineAt, parselineAt.collecting, Parseline.read, Parseline.store]

/-- An escape backslash stores the last character once more. -/
theorem step_collecting_escape (hs : state ≠ .readin_single_quote) (hps : ∀ p ∈ ps, p.char ≠ NUL) :
    Parseline.step (parselineAt.collecting parsed state ps false) '\\' =
      .next (parselineAt.collecting parsed state ps true) := by
  cases hl : lastChar ps with
  | none => simp [Parseline.step, parselineAt.collecting, Parseline.store, hs, hl]
  | some d =>
      have hd : d ≠ NUL := lastChar_ne_NUL hps d hl
      simp [Parseline.step, parselineAt.collecting, Parseline.store, hs, hl, hd]

/-- A character that the state lets through is stored, unless a backslash before it is refused. -/
theorem step_collecting_store (hs : state ≠ .done) (hc : c ≠ NUL)
    (he : ¬ (esc = false ∧ c = '\\' ∧ state ≠ .readin_single_quote))
    (hread : Parseline.read (parselineAt.collecting parsed state ps esc) c = some (state, c)) :
    Parseline.step (parselineAt.collecting parsed state ps esc) c =
      if Piece.Bad space ⟨esc, c⟩ then .throw "Options warning: Bad backslash ('\\') usage"
      else .next (parselineAt.collecting parsed state (ps ++ [⟨esc, c⟩]) false) := by
  have hb : ¬ (!(parselineAt.collecting parsed state ps esc).backslash && decide (c = '\\') &&
      decide ((parselineAt.collecting parsed state ps esc).state ≠ .readin_single_quote)) = true := by
    rw [Bool.and_eq_true, Bool.and_eq_true, Bool.not_eq_true', decide_eq_true_eq, decide_eq_true_eq, and_assoc]
    exact he
  rw [Parseline.step, if_neg hb, hread]
  cases esc <;> simp [parselineAt.collecting, Parseline.store, hs, hc, Piece.Bad, lastChar_append_singleton,
    stutter_append, stutter, and_assoc]

/-- Where a backslash escapes, it is the first character of an escape or is stored. -/
theorem step_collecting_go {ps' : List Piece} {esc' : Bool} (hs : state ≠ .done) (hs' : state ≠ .readin_single_quote)
    (hc : c ≠ NUL) (hps : ∀ p ∈ ps, p.char ≠ NUL) (hbad : ∀ p ∈ ps, ¬ p.Bad space)
    (h : (esc = false ∧ c = '\\') ∧ ps' = ps ∧ esc' = true ∨
      ¬ (esc = false ∧ c = '\\') ∧ Parseline.read (parselineAt.collecting parsed state ps esc) c = some (state, c) ∧
        ps' = ps ++ [⟨esc, c⟩] ∧ esc' = false) :
    Parseline.step (parselineAt.collecting parsed state ps esc) c =
      if ∃ p ∈ ps', p.Bad space then .throw "Options warning: Bad backslash ('\\') usage"
      else .next (parselineAt.collecting parsed state ps' esc') := by
  obtain ⟨⟨rfl, rfl⟩, rfl, rfl⟩ | ⟨he, hread, rfl, rfl⟩ := h
  · rw [if_neg (by simpa using hbad)]
    exact step_collecting_escape hs' hps
  · simp only [exists_bad_concat hbad]
    exact step_collecting_store hs hc (by tauto) hread

theorem parseline_step_go (h : l.next space c = .go l') (hc : c ≠ NUL) (hps : ∀ p ∈ l.pieces, p.char ≠ NUL)
    (hbad : ∀ p ∈ l.pieces, ¬ p.Bad space) :
    Parseline.step (parselineAt parsed l) c =
      if ∃ p ∈ l'.pieces, p.Bad space then .throw "Options warning: Bad backslash ('\\') usage"
      else .next (parselineAt parsed l') := by
  cases l with
  | between esc =>
      cases esc <;> simp only [Place.next] at h <;> split_ifs at h <;> cases h
      all_goals simp_all [Parseline.step, parselineAt, parselineAt.collecting, Parseline.read, Parseline.store,
        Place.pieces, Piece.Bad, lastChar, stutter]
  | bare ps esc =>
      simp only [Place.next] at h
      split_ifs at h with he hsp <;> cases h <;> refine step_collecting_go (by decide) (by decide) hc hps hbad ?_
      · exact .inl ⟨he, rfl, rfl⟩
      · exact .inr ⟨he, by simpa [Parseline.read, parselineAt.collecting] using hsp, rfl, rfl⟩
  | quoted ps esc =>
      simp only [Place.next] at h
      split_ifs at h with he hsp <;> cases h <;> refine step_collecting_go (by decide) (by decide) hc hps hbad ?_
      · exact .inl ⟨he, rfl, rfl⟩
      · exact .inr ⟨he, by simpa [Parseline.read, parselineAt.collecting] using hsp, rfl, rfl⟩
  | single ps =>
      simp only [Place.next] at h
      split_ifs at h with hq
      cases h
      have hone : (∃ p ∈ ps ++ [⟨false, c⟩], p.Bad space) ↔ Piece.Bad space ⟨false, c⟩ := exists_bad_concat hbad
      simp only [Place.pieces, hone]
      refine step_collecting_store (by decide) hc (by simp) ?_
      simp [Parseline.read, parselineAt.collecting, hq]

/-! ## The whole line -/

/-- What `parseline` makes of the parameters of the line. -/
def parselineResult (l : List Param) : Except ConfigParseError (List Str) :=
  if HasBad space l then .error "Options warning: Bad backslash ('\\') usage"
  else .ok ((l.filter Param.closed).map fun q => stutter none q.pieces)

theorem parselineResult_cons {q : Param} {qs : List Param} (hq : ∀ p ∈ q.pieces, ¬ p.Bad space) :
    parselineResult (q :: qs) =
      (parselineResult qs).map (fun ps => if q.closed then stutter none q.pieces :: ps else ps) := by
  have hiff : HasBad space (q :: qs) ↔ HasBad space qs := by
    rw [hasBad_cons]
    exact or_iff_right (by rintro ⟨p, hp, hb⟩; exact hq p hp hb)
  by_cases hb : HasBad space qs
  · simp [parselineResult, hiff, hb, Except.map]
  · cases hc : q.closed <;> simp [parselineResult, hiff, hb, hc, Except.map]

/-- At the end of the line, where the last iteration reads a NUL. -/
theorem parseline_loop_end (hbad : ∀ p ∈ l.pieces, ¬ p.Bad space) :
    (Flow.loop Parseline.step (parselineAt parsed l) [NUL]).map Parseline.parameters =
      (parselineResult l.finish).map (parsed ++ ·) := by
  have hspace : space NUL = true := by decide
  have hnul : NUL ≠ '\\' ∧ NUL ≠ '"' ∧ NUL ≠ '\'' := by decide
  have hres : ∀ q : Param, (∀ p ∈ q.pieces, ¬ p.Bad space) →
      parselineResult [q] = .ok (if q.closed then [stutter none q.pieces] else []) := by
    intro q hq
    rw [parselineResult_cons hq]
    cases q.closed <;> rfl
  have hnil : parselineResult [] = .ok [] := rfl
  rcases l with (_ | _) | ⟨ps, _ | _⟩ | ⟨ps, _ | _⟩ | ps
  all_goals
    simp_all [Flow.loop, Parseline.step, parselineAt, parselineAt.collecting, Parseline.read, Parseline.store,
      Place.finish, Place.pieces, Except.map]

theorem parseline_loop {cs : Str} (hcs : ∀ c ∈ cs, c ≠ NUL) (hps : ∀ p ∈ l.pieces, p.char ≠ NUL)
    (hbad : ∀ p ∈ l.pieces, ¬ p.Bad space) :
    (Flow.loop Parseline.step (parselineAt parsed l) (cs ++ [NUL])).map Parseline.parameters =
      (parselineResult (lex space l cs)).map (parsed ++ ·) := by
  induction cs generalizing parsed l with
  | nil => exact parseline_loop_end hbad
  | cons c cs ih =>
      rw [List.forall_mem_cons] at hcs
      rw [List.cons_append]
      cases h : l.next space c with
      | comment =>
          rw [Flow.loop_stop (parseline_step_comment h), lex_comment h]
          cases l <;> simp [parselineAt, parselineAt.collecting, parselineResult, Except.map]
      | close ps =>
          have hrest := @ih (parsed ++ [stutter none ps]) (.between false) hcs.2 (by simp [Place.pieces])
            (by simp [Place.pieces])
          have hps' : ∀ p ∈ ps, ¬ p.Bad space := Place.pieces_close h ▸ hbad
          rw [Flow.loop_next (parseline_step_close h), lex_close h, hrest, parselineResult_cons hps']
          cases parselineResult (lex space (.between false) cs) <;> simp [Except.map]
      | go l' =>
          have hstep := @parseline_step_go parsed l l' c h hcs.1 hps hbad
          rw [lex_go h]
          by_cases hb : ∃ p ∈ l'.pieces, p.Bad space
          · rw [if_pos hb] at hstep
            obtain ⟨p, hp, hpb⟩ := hb
            rw [Flow.loop_throw hstep, parselineResult, if_pos (hasBad_lex hp hpb)]
            rfl
          · rw [if_neg hb] at hstep
            rw [Flow.loop_next hstep]
            refine ih hcs.2 ?_ (by simpa using hb)
            rcases Place.pieces_go h with hp | ⟨esc, hp⟩
            · rw [hp]; exact hps
            · rw [hp, List.forall_mem_append]
              exact ⟨hps, by simpa using hcs.1⟩

/-- The spec of `parseline`. -/
theorem parseline_eq {line : Str} (h : ∀ c ∈ line, c ≠ NUL) :
    parseline line = parselineResult (params space line) := by
  by_cases hl : line.length = 0
  · rw [List.length_eq_zero_iff] at hl
    subst hl
    rfl
  · have hloop := @parseline_loop [] (.between false) line h (by simp [Place.pieces]) (by simp [Place.pieces])
    rw [parseline, if_neg hl, params]
    simp only [List.nil_append] at hloop
    rw [show ({} : Parseline) = parselineAt [] (.between false) from rfl, hloop]
    cases parselineResult (lex space (.between false) line) <;> rfl

end AllInSafe.Config
