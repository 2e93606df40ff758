import AllInSafe.Config.Tokenizer
import AllInSafe.Library.QuotedLine
import Mathlib.Data.List.TakeWhile

/-!
# What `parse_line` makes of a line within its limits

It returns the texts of the parameters, and fails for a bad escape or a parameter that is not closed.
-/

namespace AllInSafe.Config
open AllInSafe.Library AllInSafe.Library.QuotedLine

/-- The variables of `parse_line` after the parameters `parsed`, at the place `l`. -/
def parseLineAt (parsed : List Str) : Place → ParseLine
  | .between esc => { p := parsed, backslash := esc }
  | .bare ps esc => collecting .reading_unquoted_parm ps esc
  | .quoted ps esc => collecting .reading_quoted_parm ps esc
  | .single ps => collecting .reading_squoted_parm ps false
where
  collecting (state : ParseState) (ps : List Piece) (esc : Bool) : ParseLine :=
    { p := parsed, state := state, backslash := esc, parm := ps.map Piece.char }

/-- What `parse_line` makes of the parameters of the line; `none` is an error. -/
def parseLineResult (l : List Param) : Option (List Str) :=
  if HasBad cspace l ∨ ∃ q ∈ l, q.closed = false then none else some (l.map Param.text)

/-- Room for the parameters of a line: `n` of them, with `size` characters each. -/
def Fits (size n : Nat) (l : List Param) : Prop := l.length ≤ n ∧ ∀ q ∈ l, q.pieces.length ≤ size

instance {size n : Nat} {l : List Param} : Decidable (Fits size n l) := inferInstanceAs (Decidable (_ ∧ _))

variable {pos : Position} {size n : Nat} {parsed : List Str} {state : ParseState} {l l' : Place} {ps : List Piece}
  {esc : Bool} {c : Char}

/-! ## One iteration -/

theorem parse_line_step_comment (h : l.next cspace c = .comment) :
    ParseLine.step pos size n (parseLineAt parsed l) c = .stop (parseLineAt parsed l) := by
  cases l <;> simp only [Place.next] at h <;> split_ifs at h
  simp_all [ParseLine.step, parseLineAt, ParseLine.read]

/-- The loop is left when the last parameter that has room is closed. -/
theorem parse_line_step_close (h : l.next cspace c = .close ps) :
    ParseLine.step pos size n (parseLineAt parsed l) c =
      if n ≤ parsed.length + 1 then .stop (parseLineAt (parsed ++ [ps.map Piece.char]) (.between false))
      else .next (parseLineAt (parsed ++ [ps.map Piece.char]) (.between false)) := by
  cases l <;> simp only [Place.next] at h <;> split_ifs at h <;> cases h <;>
    simp_all [ParseLine.step, parseLineAt, parseLineAt.collecting, ParseLine.read]

/-- Between two parameters the loop may be left at once when `n` parameters are read. -/
theorem parse_line_step_between {esc' : Bool} (h : (Place.between esc).next cspace c = .go (.between esc')) :
    ParseLine.step pos size n (parseLineAt parsed (.between esc)) c =
      if n ≤ parsed.length then .stop (parseLineAt parsed (.between esc'))
      else .next (parseLineAt parsed (.between esc')) := by
  by_cases hn : n ≤ parsed.length
  all_goals
    cases esc <;> simp only [Place.next] at h <;> split_ifs at h <;> cases h <;>
      simp_all [ParseLine.step, parseLineAt, ParseLine.read, -not_le, -Nat.not_le]

theorem step_collecting_store' (hs : state ≠ .done) (hc : c ≠ NUL) (hn : parsed.length < n)
    (hsize : ps.length < size) (he : ¬ (esc = false ∧ c = '\\' ∧ state ≠ .reading_squoted_parm))
    (hread : ParseLine.read (parseLineAt.collecting parsed state ps esc) c = some (state, c)) :
    ParseLine.step pos size n (parseLineAt.collecting parsed state ps esc) c =
      if Piece.Bad cspace ⟨esc, c⟩ then .throw (ParseLine.badBackslash pos)
      else .next (parseLineAt.collecting parsed state (ps ++ [⟨esc, c⟩]) false) := by
  have hb : ¬ (!(parseLineAt.collecting parsed state ps esc).backslash && decide (c = '\\') &&
      decide ((parseLineAt.collecting parsed state ps esc).state ≠ .reading_squoted_parm)) = true := by
    rw [Bool.and_eq_true, Bool.and_eq_true, Bool.not_eq_true', decide_eq_true_eq, decide_eq_true_eq, and_assoc]
    exact he
  rw [ParseLine.step, if_neg hb, hread]
  cases esc <;> simp [parseLineAt.collecting, hs, hc, Piece.Bad, and_assoc, Nat.not_le.mpr hn, Nat.not_le.mpr hsize]

/-- Where a backslash escapes, it is the first character of an escape or is stored. -/
theorem step_collecting_go' {ps' : List Piece} {esc' : Bool} (hs : state ≠ .done)
    (hs' : state ≠ .reading_squoted_parm) (hc : c ≠ NUL) (hn : parsed.length < n) (hsize : ps'.length ≤ size)
    (hbad : ∀ p ∈ ps, ¬ p.Bad cspace)
    (h : (esc = false ∧ c = '\\') ∧ ps' = ps ∧ esc' = true ∨
      ¬ (esc = false ∧ c = '\\') ∧ ParseLine.read (parseLineAt.collecting parsed state ps esc) c = some (state, c) ∧
        ps' = ps ++ [⟨esc, c⟩] ∧ esc' = false) :
    ParseLine.step pos size n (parseLineAt.collecting parsed state ps esc) c =
      if ∃ p ∈ ps', p.Bad cspace then .throw (ParseLine.badBackslash pos)
      else .next (parseLineAt.collecting parsed state ps' esc') := by
  obtain ⟨⟨rfl, rfl⟩, rfl, rfl⟩ | ⟨he, hread, rfl, rfl⟩ := h
  · rw [if_neg (by simpa using hbad)]
    simp [ParseLine.step, parseLineAt.collecting, hs', Nat.not_le.mpr hn]
  · rw [List.length_append, List.length_singleton] at hsize
    simp only [exists_bad_concat hbad]
    exact step_collecting_store' hs hc hn hsize (by tauto) hread

theorem parse_line_step_go (h : l.next cspace c = .go l') (hc : c ≠ NUL) (hn : parsed.length < n)
    (hsize : l'.pieces.length ≤ size) (hbad : ∀ p ∈ l.pieces, ¬ p.Bad cspace) :
    ParseLine.step pos size n (parseLineAt parsed l) c =
      if ∃ p ∈ l'.pieces, p.Bad cspace then .throw (ParseLine.badBackslash pos)
      else .next (parseLineAt parsed l') := by
  have hroom : l'.pieces.length = 1 → size ≠ 0 := by omega
  cases l with
  | between esc =>
      cases esc <;> simp only [Place.next] at h <;> split_ifs at h <;> cases h
      all_goals simp_all [ParseLine.step, parseLineAt, parseLineAt.collecting, ParseLine.read,
        Place.pieces, Piece.Bad, Nat.not_le.mpr hn]
  | bare ps esc =>
      simp only [Place.next] at h
      split_ifs at h with he hsp <;> cases h <;>
        refine step_collecting_go' (by decide) (by decide) hc hn hsize hbad ?_
      · exact .inl ⟨he, rfl, rfl⟩
      · exact .inr ⟨he, by simpa [ParseLine.read, parseLineAt.collecting] using hsp, rfl, rfl⟩
  | quoted ps esc =>
      simp only [Place.next] at h
      split_ifs at h with he hsp <;> cases h <;>
        refine step_collecting_go' (by decide) (by decide) hc hn hsize hbad ?_
      · exact .inl ⟨he, rfl, rfl⟩
      · exact .inr ⟨he, by simpa [ParseLine.read, parseLineAt.collecting] using hsp, rfl, rfl⟩
  | single ps =>
      simp only [Place.next] at h
      split_ifs at h with hq
      cases h
      have hone : (∃ p ∈ ps ++ [⟨false, c⟩], p.Bad cspace) ↔ Piece.Bad cspace ⟨false, c⟩ := exists_bad_concat hbad
      simp only [Place.pieces, List.length_append, List.length_singleton] at hsize
      simp only [Place.pieces, hone]
      refine step_collecting_store' (by decide) hc hn hsize (by simp) ?_
      simp [ParseLine.read, parseLineAt.collecting, hq]

/-! ## The whole line -/

/-- When no parameter is left, the loop ends in the state between two parameters, at once or later. -/
theorem parse_line_loop_between {cs : Str} (h : lex cspace (.between esc) cs = []) :
    (Flow.loop (ParseLine.step pos size n) (parseLineAt parsed (.between esc)) (cs ++ [NUL])).bind
      (ParseLine.finish pos) = .ok parsed := by
  induction cs generalizing esc with
  | nil =>
      have hnext : (Place.between esc).next cspace NUL = .go (.between false) := by cases esc <;> decide
      have hstep := @parse_line_step_between pos size n parsed _ _ _ hnext
      rw [List.nil_append]
      by_cases hn : n ≤ parsed.length
      · rw [if_pos hn] at hstep; rw [Flow.loop_stop hstep]; rfl
      · rw [if_neg hn] at hstep; rw [Flow.loop_next hstep]; rfl
  | cons c cs ih =>
      rw [List.cons_append]
      cases hnext : (Place.between esc).next cspace c with
      | comment => rw [Flow.loop_stop (parse_line_step_comment hnext)]; rfl
      | close ps => rw [lex_close hnext] at h; cases h
      | go l' =>
          rw [lex_go hnext] at h
          obtain ⟨esc', rfl⟩ := between_of_lex_eq_nil h
          have hstep := @parse_line_step_between pos size n parsed _ _ _ hnext
          by_cases hn : n ≤ parsed.length
          · rw [if_pos hn] at hstep; rw [Flow.loop_stop hstep]; rfl
          · rw [if_neg hn] at hstep; rw [Flow.loop_next hstep]; exact ih h

theorem parseLineResult_cons {q : Param} {qs : List Param} (hq : ∀ p ∈ q.pieces, ¬ p.Bad cspace) :
    parseLineResult (q :: qs) = if q.closed then (parseLineResult qs).map (q.text :: ·) else none := by
  have hiff : HasBad cspace (q :: qs) ↔ HasBad cspace qs := by
    rw [hasBad_cons]
    exact or_iff_right (by rintro ⟨p, hp, hb⟩; exact hq p hp hb)
  cases hc : q.closed with
  | true =>
      by_cases hb : HasBad cspace qs ∨ ∃ r ∈ qs, r.closed = false
      · simp [parseLineResult, hiff, hb, hc]
      · simp [parseLineResult, hiff, hb, hc]
  | false => simp [parseLineResult, hc]

/-- At the end of the line, where the last iteration reads a NUL. -/
theorem parse_line_loop_end (hn : parsed.length < n) (hbad : ∀ p ∈ l.pieces, ¬ p.Bad cspace) :
    ((Flow.loop (ParseLine.step pos size n) (parseLineAt parsed l) [NUL]).bind (ParseLine.finish pos)).toOption =
      (parseLineResult l.finish).map (parsed ++ ·) := by
  have hspace : cspace NUL = true := by decide
  have hnul : NUL ≠ '\\' ∧ NUL ≠ '"' ∧ NUL ≠ '\'' := by decide
  have hres : ∀ q : Param, (∀ p ∈ q.pieces, ¬ p.Bad cspace) →
      parseLineResult [q] = if q.closed then some [q.text] else none := by
    intro q hq
    rw [parseLineResult_cons hq]
    cases q.closed <;> rfl
  cases l with
  | between esc =>
      have hloop := @parse_line_loop_between pos size n parsed esc [] rfl
      rw [List.nil_append] at hloop
      rw [hloop]
      simp [Place.finish, parseLineResult, Except.toOption]
  | bare ps esc =>
      cases esc with
      | true =>
          simp_all [Flow.loop, ParseLine.step, parseLineAt, parseLineAt.collecting, ParseLine.read,
            ParseLine.finish, Place.finish, Place.pieces, Except.bind, Except.toOption, Nat.not_le.mpr hn]
      | false =>
          have hnext : (Place.bare ps false).next cspace NUL = .close ps := by simp [Place.next, hspace, hnul]
          have hstep := @parse_line_step_close pos size n parsed _ ps NUL hnext
          have hfinish := hres ⟨ps, true⟩ hbad
          by_cases hn' : n ≤ parsed.length + 1
          · rw [if_pos hn'] at hstep
            rw [Flow.loop_stop hstep]
            simp [parseLineAt, ParseLine.finish, Place.finish, Except.bind, Except.toOption, hfinish, Param.text]
          · rw [if_neg hn'] at hstep
            rw [Flow.loop_next hstep]
            simp [parseLineAt, ParseLine.finish, Place.finish, Except.bind, Except.toOption, hfinish, Param.text]
  | quoted ps esc =>
      cases esc <;> simp_all [Flow.loop, ParseLine.step, parseLineAt, parseLineAt.collecting, ParseLine.read,
        ParseLine.finish, Place.finish, Place.pieces, Except.bind, Except.toOption, Nat.not_le.mpr hn]
  | single ps =>
      simp_all [Flow.loop, ParseLine.step, parseLineAt, parseLineAt.collecting, ParseLine.read,
        ParseLine.finish, Place.finish, Place.pieces, Except.bind, Except.toOption, Nat.not_le.mpr hn]

/-- When there is no room for a parameter, none is left. -/
theorem parse_line_loop_full {cs : Str} (hn : n ≤ parsed.length)
    (hfit : parsed.length + (lex cspace l cs).length ≤ n) :
    ((Flow.loop (ParseLine.step pos size n) (parseLineAt parsed l) (cs ++ [NUL])).bind
      (ParseLine.finish pos)).toOption = (parseLineResult (lex cspace l cs)).map (parsed ++ ·) := by
  have hnil : lex cspace l cs = [] := List.length_eq_zero_iff.mp (by omega)
  obtain ⟨esc, rfl⟩ := between_of_lex_eq_nil hnil
  rw [parse_line_loop_between hnil, hnil]
  simp [parseLineResult, Except.toOption]

theorem parse_line_loop {cs : Str} (hcs : ∀ c ∈ cs, c ≠ NUL) (hbad : ∀ p ∈ l.pieces, ¬ p.Bad cspace)
    (hfit : parsed.length + (lex cspace l cs).length ≤ n) (hsize : ∀ q ∈ lex cspace l cs, q.pieces.length ≤ size) :
    ((Flow.loop (ParseLine.step pos size n) (parseLineAt parsed l) (cs ++ [NUL])).bind
      (ParseLine.finish pos)).toOption = (parseLineResult (lex cspace l cs)).map (parsed ++ ·) := by
  by_cases hn : n ≤ parsed.length
  · exact parse_line_loop_full hn hfit
  rw [Nat.not_le] at hn
  induction cs generalizing parsed l with
  | nil => exact parse_line_loop_end hn hbad
  | cons c cs ih =>
      rw [List.forall_mem_cons] at hcs
      rw [List.cons_append]
      cases h : l.next cspace c with
      | comment =>
          rw [Flow.loop_stop (parse_line_step_comment h), lex_comment h]
          cases l <;> simp only [Place.next] at h <;> split_ifs at h
          simp [parseLineAt, parseLineResult, ParseLine.finish, Except.bind, Except.toOption]
      | close ps =>
          have hps : ∀ p ∈ ps, ¬ p.Bad cspace := Place.pieces_close h ▸ hbad
          have hstep := @parse_line_step_close pos size n parsed l ps c h
          rw [lex_close h] at hfit hsize ⊢
          rw [List.forall_mem_cons] at hsize
          rw [parseLineResult_cons hps]
          by_cases hlast : n ≤ parsed.length + 1
          · -- This was the last parameter that has room.
            have hnil : lex cspace (.between false) cs = [] := by
              rw [List.length_cons] at hfit
              exact List.length_eq_zero_iff.mp (by omega)
            rw [if_pos hlast] at hstep
            rw [Flow.loop_stop hstep, hnil]
            simp [parseLineAt, parseLineResult, ParseLine.finish, Except.bind, Except.toOption, Param.text]
          · rw [if_neg hlast] at hstep
            have hrest := @ih (parsed ++ [ps.map Piece.char]) (.between false) hcs.2 (by simp [Place.pieces])
              (by simp only [List.length_append, List.length_cons, List.length_nil] at hfit ⊢; omega) hsize.2
              (by simpa using hlast)
            rw [Flow.loop_next hstep, hrest]
            cases parseLineResult (lex cspace (.between false) cs) <;> simp [Param.text]
      | go l' =>
          rw [lex_go h] at hfit hsize ⊢
          have hstep := @parse_line_step_go pos size n parsed l l' c h hcs.1 hn (length_pieces_le hsize) hbad
          by_cases hb : ∃ p ∈ l'.pieces, p.Bad cspace
          · rw [if_pos hb] at hstep
            obtain ⟨p, hp, hpb⟩ := hb
            rw [Flow.loop_throw hstep, parseLineResult, if_pos (.inl (hasBad_lex hp hpb))]
            rfl
          · rw [if_neg hb] at hstep
            rw [Flow.loop_next hstep]
            exact ih hcs.2 (by simpa using hb) hfit hsize hn

/-- The spec of `parse_line`: with room for the parameters of the line, it is what the line says. -/
theorem parse_line_eq {line : Str} (h : ∀ c ∈ line, c ≠ NUL) (hfit : Fits size n (params cspace line)) :
    (parse_line pos size n line).toOption = parseLineResult (params cspace line) := by
  have htake : line.takeWhile (· ≠ NUL) = line := by
    rw [List.takeWhile_eq_self_iff]
    simpa using h
  have hloop := @parse_line_loop pos size n [] (.between false) line h (by simp [Place.pieces])
    (by simpa [params] using hfit.1) hfit.2
  rw [parse_line, htake, show ({} : ParseLine) = parseLineAt [] (.between false) from rfl, hloop, params]
  simp

end AllInSafe.Config
