import AllInSafe.Config.Lemmas.Lines
import AllInSafe.Config.Lemmas.Words

/-!
# Inline files

The block that `insertFileData` writes is one record, whatever stands around it.
-/

namespace AllInSafe.Config
open AllInSafe.Library

/-- What the tag of an inline file is made of. -/
def TagChar (c : Char) : Prop := c.isAlphanum = true ∨ c = '-'

instance (c : Char) : Decidable (TagChar c) := inferInstanceAs (Decidable (_ ∨ _))

def startTag (tag : Str) : Str := '<' :: tag ++ ['>']

def endTag (tag : Str) : Str := "</" ++ tag ++ ">"

section

variable {tag content line : Str} {lines : List Str}

/-! ## Characters -/

theorem TagChar.toNat {c : Char} (h : TagChar c) : c.toNat = 45 ∨ (48 ≤ c.toNat ∧ c.toNat ≤ 57) ∨
    (65 ≤ c.toNat ∧ c.toNat ≤ 90) ∨ (97 ≤ c.toNat ∧ c.toNat ≤ 122) := by
  rcases h with h | rfl
  · simp only [Char.isAlphanum, Char.isAlpha, Char.isUpper, Char.isLower, Char.isDigit, Bool.or_eq_true,
      Bool.and_eq_true, decide_eq_true_eq, ge_iff_le, UInt32.le_iff_toNat_le] at h
    have hn : c.val.toNat = c.toNat := rfl
    simp at h
    omega
  · exact .inl rfl

theorem TagChar.word {c : Char} (h : TagChar c) : WordChar c := by
  have hn := h.toNat
  constructor
  · intro hc
    simp only [quotedChars, List.mem_cons, List.not_mem_nil, or_false] at hc
    rcases hc with rfl | rfl | rfl | rfl | rfl | rfl <;> revert hn <;> decide
  · have hnul : c ≠ NUL := by rintro rfl; revert hn; decide
    simp only [space, isWhitespace, hnul, decide_false, Bool.or_false, Bool.or_eq_false_iff, Bool.and_eq_false_iff,
      decide_eq_false_iff_not]
    omega

theorem startTag_word (h : ∀ c ∈ tag, TagChar c) : Word (startTag tag) := by
  refine ⟨List.cons_ne_nil _ _, fun c hc => ?_⟩
  rw [startTag, List.cons_append, List.mem_cons, List.mem_append, List.mem_singleton] at hc
  rcases hc with rfl | hc | rfl
  · decide
  · exact (h c hc).word
  · decide

theorem WordChar.not_mem_text {word : Str} (h : Word word) : '\n' ∉ word ∧ '\r' ∉ word :=
  ⟨fun hc => (h.2 _ hc).ne (.inr (by decide)) rfl, fun hc => (h.2 _ hc).ne (.inr (by decide)) rfl⟩

theorem trim_eq_self {c d : Char} {cs : Str} (hc : 0x20 < c.toNat) (hd : 0x20 < d.toNat) :
    Str.trim (c :: cs ++ [d]) = c :: cs ++ [d] := by
  have hfirst : (c :: cs ++ [d]).dropWhile (fun c => decide (c.toNat ≤ 0x20)) = c :: cs ++ [d] := by
    rw [List.cons_append, List.dropWhile_cons_of_neg (by simpa using hc)]
  have hlast : (c :: cs ++ [d]).reverse.dropWhile (fun c => decide (c.toNat ≤ 0x20)) = (c :: cs ++ [d]).reverse := by
    rw [List.reverse_append, List.reverse_singleton, List.singleton_append,
      List.dropWhile_cons_of_neg (by simpa using hd)]
  rw [Str.trim]
  simp only [hfirst, hlast, List.reverse_reverse]

theorem trim_startTag (tag : Str) : Str.trim (startTag tag) = startTag tag := trim_eq_self (by decide) (by decide)

theorem trim_endTag (tag : Str) : Str.trim (endTag tag) = endTag tag := by
  have htag : endTag tag = '<' :: ('/' :: tag) ++ ['>'] := rfl
  rw [htag]
  exact trim_eq_self (by decide) (by decide)

/-! ## The text -/

theorem startsWith_append (t s : Str) : Str.startsWith t (t ++ s) = true := by
  rw [Str.startsWith, List.isPrefixOf_iff_prefix]
  exact List.prefix_append t s

theorem after_append (t s : Str) : Str.after t (t ++ s) = s := by
  have hindex : Str.indexOf t (t ++ s) = some 0 := by
    have hstarts := startsWith_append t s
    cases h : t ++ s with
    | nil => rw [Str.indexOf, if_pos (List.append_eq_nil_iff.mp h).1]
    | cons c cs => rw [h] at hstarts; rw [Str.indexOf, if_pos hstarts]
  rw [Str.after, hindex]
  simp

theorem insertFileData_inline (tag content : Str) : insertFileData tag (some (INLINE_TAG ++ content)) =
    startTag tag ++ '\n' :: (content ++ '\n' :: (endTag tag ++ ['\n'])) := by
  have hembedded : isEmbedded (INLINE_TAG ++ content) = true := by
    rw [isEmbedded, startsWith_append, Bool.true_or]
  rw [insertFileData, if_pos hembedded, getEmbeddedContent, after_append]
  simp [startTag, endTag]

theorem readLinesFrom_inline (htag : ∀ c ∈ tag, TagChar c) (hcr : '\r' ∉ content) (skip : Bool) (rest : Str) :
    readLinesFrom false [] skip (insertFileData tag (some (INLINE_TAG ++ content)) ++ rest) =
      startTag tag :: (Str.parts (· = '\n') content ++ endTag tag :: readLinesFrom false [] false rest) := by
  have hstart := WordChar.not_mem_text (startTag_word htag)
  have hend : '\n' ∉ endTag tag ∧ '\r' ∉ endTag tag := by
    have hmem : ∀ c ∈ endTag tag, c = '/' ∨ c ∈ startTag tag := by
      intro c hc
      simp [endTag, startTag] at hc ⊢
      tauto
    exact ⟨fun h => (hmem _ h).elim (by decide) hstart.1, fun h => (hmem _ h).elim (by decide) hstart.2⟩
  rw [insertFileData_inline, List.append_assoc, List.cons_append, List.append_assoc, List.cons_append,
    List.append_assoc, List.singleton_append,
    readLinesFrom_line hstart.1 hstart.2 (fun _ => List.cons_ne_nil _ _), readLinesFrom_parts hcr,
    readLinesFrom_line hend.1 hend.2 (fun h => by cases h)]
  obtain ⟨p, ps, hparts⟩ := List.exists_cons_of_ne_nil (Str.parts_ne_nil (fun c => decide (c = '\n')) content)
  rw [hparts]
  rfl

/-! ## The record -/

theorem readInline_cons (line : Str) (lines : List Str) : readInline false tag (line :: lines) =
    if Str.trim line = endTag tag then .ok ([], 1)
    else (readInline false tag lines).map fun (inlinefile, n) => (line ++ '\n' :: inlinefile, n + 1) := rfl

theorem readInline_lines (h : ∀ line ∈ lines, Str.trim line ≠ endTag tag) (rest : List Str) :
    readInline false tag (lines ++ endTag tag :: rest) = .ok (lines.flatMap (· ++ ['\n']), lines.length + 1) := by
  induction lines with
  | nil => rw [List.nil_append, readInline_cons, if_pos (trim_endTag tag)]; rfl
  | cons line lines ih =>
      rw [List.forall_mem_cons] at h
      rw [List.cons_append, readInline_cons, if_neg h.1, ih h.2]
      simp [Except.map]

theorem checkinlinefile_startTag (h : ∀ line ∈ Str.parts (· = '\n') content, Str.trim line ≠ endTag tag)
    (rest : List Str) :
    checkinlinefile false [startTag tag] (Str.parts (· = '\n') content ++ endTag tag :: rest) =
      .ok ([tag, INLINE_TAG ++ content], (Str.parts (· = '\n') content).length + 1) := by
  have hstarts : Str.startsWith "<" (startTag tag) = true := startsWith_append ['<'] _
  have hends : Str.endsWith ">" (startTag tag) = true := by
    rw [Str.endsWith, List.isSuffixOf_iff_suffix]
    exact List.suffix_append ('<' :: tag) ['>']
  have hname : ((startTag tag).drop 1).dropLast = tag := by simp [startTag]
  have hnewline : Str.endsWith "\n" (INLINE_TAG ++ content ++ ['\n']) = true := by
    rw [Str.endsWith, List.isSuffixOf_iff_suffix]
    exact List.suffix_append _ ['\n']
  have hread := readInline_lines h rest
  rw [flatMap_parts] at hread
  change (if (Str.startsWith "<" (Str.trim (startTag tag)) && Str.endsWith ">" (Str.trim (startTag tag))) = true
    then _ else _) = _
  rw [trim_startTag, hstarts, hends, if_pos (by rfl), hname]
  rw [hread]
  simp only [bind, Except.bind, ← List.append_assoc, List.dropLast_concat]
  rw [if_pos hnewline]
  rfl

theorem readRecord_startTag (htag : ∀ c ∈ tag, TagChar c)
    (h : ∀ line ∈ Str.parts (· = '\n') content, Str.trim line ≠ endTag tag) (rest : List Str) :
    readRecord false (startTag tag) (Str.parts (· = '\n') content ++ endTag tag :: rest) =
      .ok (some (.option [tag, INLINE_TAG ++ content]), (Str.parts (· = '\n') content).length + 1) := by
  have hwords : parseline (startTag tag) = .ok [startTag tag] := by
    have hword : ∀ word ∈ [startTag tag], Word word := by simpa using startTag_word htag
    rw [← parseline_unwords hword, unwords_singleton]
  have hserver : Str.startsWith accessServer (startTag tag) = false := rfl
  have hdashes : Str.startsWith "--" (startTag tag) = false := rfl
  rw [readRecord, hserver, if_neg (by decide), readOption, hwords]
  simp only [hdashes]
  rw [if_neg (by decide), checkinlinefile_startTag h]
  rfl

theorem readRecords_skip (lineno : Nat) (lines rest : List Str) :
    readRecords false lineno lines.length (lines ++ rest) = readRecords false lineno 0 rest := by
  induction lines with
  | nil => rfl
  | cons line lines ih => exact ih

/-- A block is read as one record, and reading goes on behind it. -/
theorem readRecords_inline (htag : ∀ c ∈ tag, TagChar c) (hcr : '\r' ∉ content)
    (h : ∀ line ∈ Str.parts (· = '\n') content, Str.trim line ≠ endTag tag) (lineno : Nat) (skip : Bool) (rest : Str) :
    readRecords false lineno 0
        (readLinesFrom false [] skip (insertFileData tag (some (INLINE_TAG ++ content)) ++ rest)) =
      (readRecords false (lineno + 1) 0 (readLinesFrom false [] false rest)).map
        (.option [tag, INLINE_TAG ++ content] :: ·) := by
  have hcheck : checkLine lineno (startTag tag) = .ok (startTag tag) := by
    rw [checkLine]
    split <;> rfl
  have hskip := readRecords_skip (lineno + 1) (Str.parts (· = '\n') content ++ [endTag tag])
    (readLinesFrom false [] false rest)
  rw [List.length_append, List.length_singleton, List.append_assoc, List.singleton_append] at hskip
  rw [readLinesFrom_inline htag hcr, readRecords_cons_ok hcheck (readRecord_startTag htag h _), hskip]
  rfl

end

end AllInSafe.Config
