import AllInSafe.Library.Parts
import AllInSafe.Management.Input

/-!
# The commands of the management interface

The lines that the loop finds, and when they are those of the stream.
-/

namespace AllInSafe.Management
open AllInSafe.Library

/-! ## Complete lines -/

section

variable {s t : Str}

theorem parts_split (s : Str) : Str.parts (· = '\n') s = (Str.parts (· = '\n') s).dropLast ++ [remainder s] := by
  have hne := Str.parts_ne_nil (fun c => decide (c = '\n')) s
  rw [remainder, List.getLastD_eq_getLast?, List.getLast?_eq_some_getLast hne, Option.getD_some]
  exact (List.dropLast_concat_getLast hne).symm

theorem parts_newline (s : Str) : Str.parts (· = '\n') ('\n' :: s) = [] :: Str.parts (· = '\n') s :=
  Str.parts_cons_sep (by decide)

theorem completeLines_of_parts {p : Str} {ps : List Str} (h : Str.parts (· = '\n') s = ps ++ [p]) :
    completeLines s = ps.map chomp ∧ remainder s = p := by
  rw [completeLines, remainder, h]
  simp

theorem completeLines_append (s t : Str) :
    completeLines (s ++ t) = completeLines s ++ completeLines (remainder s ++ t) ∧
      remainder (s ++ t) = remainder (remainder s ++ t) := by
  have h := Str.parts_append (t := t) (parts_split s)
  rw [parts_split (remainder s ++ t), ← List.append_assoc] at h
  obtain ⟨hlines, hrest⟩ := completeLines_of_parts h
  refine ⟨?_, hrest⟩
  rw [hlines, List.map_append]
  rfl

theorem completeLines_of_not_mem (h : '\n' ∉ s) : completeLines s = [] ∧ remainder s = s := by
  have hparts : Str.parts (· = '\n') s = [] ++ [s] := by
    induction s with
    | nil => rfl
    | cons c s ih =>
        rw [List.mem_cons, not_or] at h
        exact Str.parts_cons (by simpa using Ne.symm h.1) (ih h.2)
  exact completeLines_of_parts hparts

theorem completeLines_newline (hs : '\n' ∉ s) (t : Str) :
    completeLines (s ++ '\n' :: t) = chomp s :: completeLines t ∧ remainder (s ++ '\n' :: t) = remainder t := by
  have hparts : Str.parts (· = '\n') (s ++ '\n' :: t) = s :: Str.parts (· = '\n') t := by
    induction s with
    | nil => exact parts_newline t
    | cons c s ih =>
        rw [List.mem_cons, not_or] at hs
        exact Str.parts_cons (by simpa using Ne.symm hs.1) (ih hs.2)
  rw [parts_split t, ← List.cons_append] at hparts
  exact completeLines_of_parts hparts

end

/-! ## processInput -/

theorem chomp_cons {c : Char} {s : Str} (h : s ≠ [] ∨ c ≠ '\r') : chomp (c :: s) = c :: chomp s := by
  cases s with
  | nil =>
      have hc : c ≠ '\r' := h.resolve_left fun hs => hs rfl
      simp [chomp, hc]
  | cons d s =>
      rw [chomp, chomp, List.getLast?_cons_cons]
      split
      · rfl
      · rfl

theorem not_mem_of_splitLine_none {text : Str} (h : splitLine text = none) : '\n' ∉ text := by
  fun_induction splitLine text with
  | case1 => exact List.not_mem_nil
  | case2 cs => cases h
  | case3 cs => cases h
  | case4 c cs hnewline _ ih =>
      rw [List.mem_cons, not_or]
      exact ⟨fun hc => hnewline hc.symm, ih (Option.map_eq_none_iff.mp h)⟩

theorem splitLine_eq_some {text line rest : Str} (h : splitLine text = some (line, rest)) :
    ∃ raw, '\n' ∉ raw ∧ text = raw ++ '\n' :: rest ∧ line = chomp raw := by
  fun_induction splitLine text generalizing line with
  | case1 => cases h
  | case2 cs =>
      cases h
      exact ⟨[], List.not_mem_nil, rfl, rfl⟩
  | case3 cs =>
      cases h
      exact ⟨['\r'], by decide, rfl, by decide⟩
  | case4 c cs hnewline hreturn ih =>
      obtain ⟨⟨line', rest'⟩, hsplit, heq⟩ := Option.map_eq_some_iff.mp h
      cases heq
      obtain ⟨raw, hraw, rfl, rfl⟩ := ih hsplit
      refine ⟨c :: raw, ?_, rfl, (chomp_cons ?_).symm⟩
      · rw [List.mem_cons, not_or]
        exact ⟨fun hc => hnewline hc.symm, hraw⟩
      · cases raw with
        | nil => exact .inr fun hc => hreturn _ hc rfl
        | cons d raw => exact .inl (List.cons_ne_nil d raw)

theorem processInput_eq (text : Str) : processInput text = (completeLines text, remainder text) := by
  fun_induction processInput text with
  | case1 text hnone =>
      obtain ⟨hlines, hrest⟩ := completeLines_of_not_mem (not_mem_of_splitLine_none hnone)
      rw [hlines, hrest]
  | case2 text command rest hsome _ ih =>
      obtain ⟨raw, hraw, rfl, rfl⟩ := splitLine_eq_some hsome
      obtain ⟨hlines, hrest⟩ := completeLines_newline hraw rest
      rw [hlines, hrest, ih]

/-! ## run -/

theorem foldl_read (text : Str) (reads : List (List UInt8)) :
    reads.foldl Session.read ⟨completeLines text, remainder text⟩ =
      ⟨completeLines (text ++ reads.flatMap Utf8.decode), remainder (text ++ reads.flatMap Utf8.decode)⟩ := by
  induction reads generalizing text with
  | nil => simp
  | cons buffer reads ih =>
      obtain ⟨hlines, hrest⟩ := completeLines_append text (Utf8.decode buffer)
      rw [List.foldl_cons, Session.read, processInput_eq]
      simp only
      rw [← hlines, ← hrest, ih, List.flatMap_cons, List.append_assoc]

/-- The commands are the lines of what the reads decode to one by one. -/
theorem run_eq (reads : List (List UInt8)) :
    run reads = ⟨completeLines (reads.flatMap Utf8.decode), remainder (reads.flatMap Utf8.decode)⟩ :=
  foldl_read [] reads

/-! ## Characters outside ASCII -/

theorem wide_chomp (line : Str) : Utf8.wide (chomp line) = Utf8.wide line := by
  rw [chomp]
  split
  case isTrue h =>
      obtain ⟨ds, rfl⟩ := List.getLast?_eq_some_iff.mp h
      rw [List.dropLast_concat, Utf8.wide_append]
      rfl
  case isFalse => rfl

theorem wide_parts (text : Str) : Utf8.wide (Str.parts (· = '\n') text).flatten = Utf8.wide text := by
  induction text with
  | nil => rfl
  | cons c text ih =>
      by_cases hc : c = '\n'
      · rw [hc, parts_newline, List.flatten_cons, List.nil_append, ih]
        rfl
      · obtain ⟨p, ps, hp⟩ := List.exists_cons_of_ne_nil (Str.parts_ne_nil (fun c => decide (c = '\n')) text)
        rw [hp, List.flatten_cons] at ih
        rw [Str.parts_cons (by simpa using hc) hp, List.flatten_cons, List.cons_append, Utf8.wide, List.countP_cons,
          ← Utf8.wide, ih, Utf8.wide, Utf8.wide, List.countP_cons]

/-- Line terminators are ASCII, so the lines have all other characters of the text. -/
theorem wide_lines (text : Str) :
    Utf8.wide (completeLines text).flatten + Utf8.wide (remainder text) = Utf8.wide text := by
  have hchomp : ∀ lines : List Str, Utf8.wide (lines.map chomp).flatten = Utf8.wide lines.flatten := by
    intro lines
    induction lines with
    | nil => rfl
    | cons line lines ih => simp [wide_chomp, ih]
  have hparts := wide_parts text
  rw [parts_split text, List.flatten_append, Utf8.wide_append, List.flatten_singleton] at hparts
  rw [completeLines, hchomp, hparts]


/-! ## Reads of any size -/

/-- Each read is decoded on its own, so the commands are the lines of the stream exactly where no read ends inside
a character. -/
theorem run_lines_iff {reads : List (List UInt8)} {text : Str} (h : reads.flatten = Utf8.encode text) :
    run reads = ⟨completeLines text, remainder text⟩ ↔ ∀ buffer ∈ reads, Utf8.Valid buffer := by
  rw [run_eq]
  constructor
  · intro hrun
    obtain ⟨hlines, hrest⟩ := Session.mk.inj hrun
    apply Utf8.valid_of_wide_le h
    rw [← wide_lines (reads.flatMap Utf8.decode), hlines, hrest, wide_lines]
  · intro hvalid
    rw [Utf8.flatMap_decode h hvalid]

/-- A line that comes in two reads, cut before its newline. -/
theorem run_lines_iff_hold :
    run [Utf8.encode ">HOLD:Waiting\r", Utf8.encode "\n>STATE:"] =
      ⟨completeLines ">HOLD:Waiting\r\n>STATE:", remainder ">HOLD:Waiting\r\n>STATE:"⟩ := by
  have h : [Utf8.encode ">HOLD:Waiting\r", Utf8.encode "\n>STATE:"].flatten =
      Utf8.encode ">HOLD:Waiting\r\n>STATE:" := by decide
  refine (run_lines_iff h).mpr fun buffer hbuffer => ?_
  rcases List.mem_cons.mp hbuffer with rfl | hbuffer
  · exact ⟨_, rfl⟩
  · exact ⟨_, List.mem_singleton.mp hbuffer⟩

/-- The letter é in two reads of one byte each becomes two replacement characters. -/
theorem run_lines_cut : ¬ ∀ (reads : List (List UInt8)) (text : Str),
    (∀ buffer ∈ reads, buffer ≠ [] ∧ buffer.length ≤ 2048) → reads.flatten = Utf8.encode text →
    run reads = ⟨completeLines text, remainder text⟩ := by
  intro h
  have hrun := h [[0xC3], [0xA9, 0x0A]] "é\n" (by decide) (by decide)
  rw [run_eq] at hrun
  exact absurd hrun (by decide)

end AllInSafe.Management
