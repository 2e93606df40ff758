import AllInSafe.Config.Lemmas.Inline
import AllInSafe.Config.Lemmas.ParseLine

/-!
# The configuration text between ConfigParser and OpenVPN
-/

namespace AllInSafe.Config
open AllInSafe.Library AllInSafe.Library.QuotedLine

/-! ## The two tokenizers -/

/-- Printable ASCII, space and tab. -/
def Plain (c : Char) : Prop := (0x20 ≤ c.toNat ∧ c.toNat ≤ 0x7E) ∨ c = '\t'

instance {c : Char} : Decidable (Plain c) := inferInstanceAs (Decidable (_ ∨ _))

theorem Plain.ne_NUL {c : Char} (h : Plain c) : c ≠ NUL := by
  rintro rfl
  exact absurd h (by decide)

theorem Plain.cspace_eq {c : Char} (h : Plain c) : cspace c = space c := by
  have hnul : c ≠ NUL := h.ne_NUL
  rcases h with h | rfl
  · have hsp : c = ' ' ↔ c.toNat = 0x20 := Char.toNat_inj.symm
    rw [Bool.eq_iff_iff]
    simp only [cspace, space, isspace, isWhitespace, hnul, hsp, decide_false, Bool.false_eq_true, false_or, or_false,
      Bool.or_eq_true, Bool.and_eq_true, decide_eq_true_eq]
    omega
  · decide

/-- Without bad escapes, the two results agree when no parameter is lost and none is changed. -/
theorem agree_iff {l : List Param} :
    some ((l.filter Param.closed).map fun q => stutter none q.pieces) =
        (if ∃ q ∈ l, q.closed = false then none else some (l.map Param.text)) ↔
      ∀ q ∈ l, q.closed = true ∧ ¬ LateEscape q := by
  by_cases hc : ∃ q ∈ l, q.closed = false
  · rw [if_pos hc]
    obtain ⟨q, hq, hf⟩ := hc
    exact iff_of_false (by simp) fun h => by simp [(h q hq).1] at hf
  · have hall : ∀ q ∈ l, q.closed = true := by simpa using hc
    rw [if_neg hc, Option.some.injEq, List.filter_eq_self.mpr hall, List.map_inj_left]
    exact forall₂_congr fun q hq => by rw [stutter_eq_text_iff]; simp [hall q hq]

/-- On a line of printable ASCII, space and tab whose parameters have room, the two tokenizers agree exactly when
both refuse an escape, or every parameter is closed and has no escape backslash after its first character. -/
theorem parseline_agrees_iff {pos : Position} {size n : Nat} {line : Str} (hplain : ∀ c ∈ line, Plain c)
    (hfit : Fits size n (params space line)) :
    (parseline line).toOption = (parse_line pos size n line).toOption ↔
      HasBad space (params space line) ∨ ∀ q ∈ params space line, q.closed = true ∧ ¬ LateEscape q := by
  have hnul : ∀ c ∈ line, c ≠ NUL := fun c hc => (hplain c hc).ne_NUL
  have hspace : ∀ c ∈ line, cspace c = space c := fun c hc => (hplain c hc).cspace_eq
  have hparams : params cspace line = params space line := lex_congr hspace
  have hbad : HasBad cspace (params space line) ↔ HasBad space (params space line) :=
    hasBad_congr fun q hq p hp => hspace _ ((mem_lex hq hp).resolve_left List.not_mem_nil)
  rw [parseline_eq hnul, parse_line_eq hnul (hparams ▸ hfit), hparams]
  generalize params space line = l at *
  simp only [parselineResult, parseLineResult, hbad]
  by_cases hb : HasBad space l
  · simp [hb, Except.toOption]
  · simp only [hb, if_false, false_or, Except.toOption]
    exact agree_iff

theorem parseline_agrees_iff_setenv :
    (parseline "setenv NAME \"\\\"a b\" # comment").toOption =
      (parse_line ⟨"client.ovpn", 1⟩ OPTION_PARM_SIZE MAX_PARMS "setenv NAME \"\\\"a b\" # comment").toOption := by
  exact (parseline_agrees_iff (by decide) (by decide)).mpr (by decide)

/-- `x ab\\c` gets a second `b` from ConfigParser, and `a "b` no error. -/
theorem parseline_disagrees :
    parseline "x ab\\\\c" = .ok ["x", "abb\\c"] ∧
    parse_line ⟨"client.ovpn", 1⟩ OPTION_PARM_SIZE MAX_PARMS "x ab\\\\c" = .ok ["x", "ab\\c"] ∧
    parseline "a \"b" = .ok ["a"] ∧
    parse_line ⟨"client.ovpn", 1⟩ OPTION_PARM_SIZE MAX_PARMS "a \"b" =
      .error "Options error: No closing quotation (\") in client.ovpn:1" := by
  refine ⟨rfl, rfl, rfl, rfl⟩

/-! ## Escaped options -/

/-- What the option names of a configuration are made of. -/
def NameChar (c : Char) : Prop := c.isAlpha = true ∨ c = '-'

instance {c : Char} : Decidable (NameChar c) := inferInstanceAs (Decidable (_ ∨ _))

/-- What an argument of an option may consist of. -/
def ArgChar (c : Char) : Prop := c ≠ NUL ∧ c ≠ '\r' ∧ c ≠ '\n'

instance {c : Char} : Decidable (ArgChar c) := inferInstanceAs (Decidable (_ ∧ _))

theorem NameChar.toNat {c : Char} (h : NameChar c) :
    c.toNat = 45 ∨ (65 ≤ c.toNat ∧ c.toNat ≤ 90) ∨ (97 ≤ c.toNat ∧ c.toNat ≤ 122) := by
  rcases h with h | rfl
  · simp only [Char.isAlpha, Char.isUpper, Char.isLower, Bool.or_eq_true, Bool.and_eq_true, decide_eq_true_eq,
      ge_iff_le, UInt32.le_iff_toNat_le] at h
    exact .inr (by simpa using h)
  · exact .inl rfl

theorem NameChar.ne {c d : Char} (h : NameChar c) (hd : d.toNat < 45) : c ≠ d := by
  rintro rfl
  have := h.toNat
  omega

theorem NameChar.survives {name : Str} (h : ∀ c ∈ name, NameChar c) : Survives name := by
  refine ⟨fun c hc => ?_, .inr fun c hc => ?_⟩
  · have hn := (h c (List.mem_of_mem_tail hc)).toNat
    constructor
    · rintro rfl; revert hn; decide
    · rintro rfl; revert hn; decide
  · have hn := (h c hc).toNat
    simp only [isWhitespace, Bool.or_eq_false_iff, Bool.and_eq_false_iff, decide_eq_false_iff_not]
    omega

/-- A custom option is written as one line, and that line is read back as the same option exactly when each of
its arguments survives. -/
theorem parseline_getOptionStrings_iff {name : Str} {args : List Str} (hname : ∀ c ∈ name, NameChar c)
    (hcerts : name ≠ "extra-certs") (hargs : ∀ arg ∈ args, ∀ c ∈ arg, ArgChar c)
    (hignore : ignoreThisOption (name :: args) = false) :
    (∃ line, getOptionStrings [name :: args] = line ++ ['\n'] ∧ '\n' ∉ line ∧ '\r' ∉ line ∧
        parseline line = .ok (name :: args)) ↔
      ∀ arg ∈ args, Survives arg := by
  have hchars : ∀ arg ∈ name :: args, ∀ c ∈ arg, ArgChar c := by
    rw [List.forall_mem_cons]
    exact ⟨fun c hc => ⟨(hname c hc).ne (by decide), (hname c hc).ne (by decide), (hname c hc).ne (by decide)⟩, hargs⟩
  have hplain : ∀ arg ∈ name :: args, '\n' ∉ arg ∧ NUL ∉ arg := fun arg ha =>
    ⟨fun hm => (hchars arg ha _ hm).2.2 rfl, fun hm => (hchars arg ha _ hm).1 rfl⟩
  have hline : getOptionStrings [name :: args] =
      (name :: args).flatMap (fun arg => openVpnEscape arg ++ [' ']) ++ ['\n'] := by
    have hopt : ¬ ((decide ((name :: args).length = 2) &&
        decide ((name :: args).head? = some "extra-certs".toList)) = true) := by
      rw [Bool.and_eq_true, decide_eq_true_eq, decide_eq_true_eq]
      exact fun h => hcerts (Option.some.inj h.2)
    rw [getOptionStrings, List.flatMap_cons, List.flatMap_nil, List.append_nil, getOptionString,
      if_neg (by rw [hignore]; decide), if_neg hopt]
  have hnot : ∀ d, d = '\n' ∨ d = '\r' → d ∉ (name :: args).flatMap fun arg => openVpnEscape arg ++ [' '] := by
    intro d hd hm
    obtain ⟨arg, ha, hm⟩ := List.mem_flatMap.mp hm
    have hc := hchars arg ha d
    rcases List.mem_append.mp hm with hm | hm
    · rcases mem_openVpnEscape (hplain arg ha).1 hm with hm | rfl | rfl
      · rcases hd with rfl | rfl
        · exact (hc hm).2.2 rfl
        · exact (hc hm).2.1 rfl
      · revert hd; decide
      · revert hd; decide
    · rw [List.mem_singleton] at hm; subst hm; revert hd; decide
  have hall : (∀ arg ∈ name :: args, Survives arg) ↔ ∀ arg ∈ args, Survives arg := by
    rw [List.forall_mem_cons]
    exact and_iff_right (NameChar.survives hname)
  rw [← hall, ← flatMap_argTexts_eq_iff hplain]
  constructor
  · rintro ⟨line, he, -, -, hp⟩
    rw [hline] at he
    rw [← List.append_cancel_right he, parseline_flatMap_openVpnEscape hplain] at hp
    exact Except.ok.inj hp
  · intro he
    refine ⟨_, hline, hnot _ (.inl rfl), hnot _ (.inr rfl), ?_⟩
    rw [parseline_flatMap_openVpnEscape hplain, he]

theorem parseline_getOptionStrings_iff_setenv :
    ∃ line, getOptionStrings [["setenv", "FILE", "my file;", "\"", ""]] = line ++ ['\n'] ∧ '\n' ∉ line ∧ '\r' ∉ line ∧
      parseline line = .ok ["setenv", "FILE", "my file;", "\"", ""] := by
  exact (parseline_getOptionStrings_iff (by decide) (by decide) (by decide) (by decide)).mpr (by decide)

/-- A backslash after the first character comes back with the character before it twice, and a tab splits its
argument. -/
theorem parseline_getOptionStrings_lost :
    getOptionStrings [["pkcs12", "a\\b"]] = "pkcs12 \"a\\\\b\" \n" ∧
    parseline "pkcs12 \"a\\\\b\" " = .ok ["pkcs12", "aa\\b"] ∧
    getOptionStrings [["pkcs12", "a\tb"]] = "pkcs12 a\tb \n" ∧
    parseline "pkcs12 a\tb " = .ok ["pkcs12", "a", "b"] :=
  ⟨rfl, rfl, rfl, rfl⟩

/-! ## Inline files -/

/-- The records of a text that stands behind another one. -/
def laterRecords (text : Str) : Except Throwable (List Record) :=
  readRecords false 2 0 (readLinesFrom false [] false text)

theorem readRecords_laterRecords {lineno : Nat} (h : 1 < lineno) (skip : Bool) (text : Str) :
    readRecords false lineno 0 (readLinesFrom false [] skip text) = laterRecords text := by
  cases skip with
  | false => exact readRecords_lineno h (by decide) 0 _
  | true =>
      cases text with
      | nil => rfl
      | cons c text =>
          by_cases hc : c = '\n'
          · subst hc
            have hempty : readRecord false [] (readLinesFrom false [] false text) = .ok (none, 0) := rfl
            have hlines : readLinesFrom false [] false ('\n' :: text) = [] :: readLinesFrom false [] false text := rfl
            have hskip : readLinesFrom false [] true ('\n' :: text) = readLinesFrom false [] false text := rfl
            have hcheck : checkLine 2 [] = .ok [] := rfl
            rw [laterRecords, hlines, hskip, readRecords_cons_ok hcheck hempty,
              readRecords_lineno h (by decide : 1 < 3)]
            cases readRecords false 3 0 (readLinesFrom false [] false text) <;> rfl
          · have hsame : readLinesFrom false [] true (c :: text) = readLinesFrom false [] false (c :: text) := by
              simp [readLinesFrom, hc]
            rw [hsame]
            exact readRecords_lineno h (by decide) 0 _

theorem readRecords_first {text : Str}
    (h : ∀ line ∈ (readLinesFrom false [] false text).head?, firstLine line = .ok line) :
    readRecords false 1 0 (readLinesFrom false [] false text) = laterRecords text := by
  rw [laterRecords]
  cases hlines : readLinesFrom false [] false text with
  | nil => rfl
  | cons line lines =>
      rw [hlines] at h
      have hone : checkLine 1 line = .ok line := h line rfl
      have htwo : checkLine 2 line = .ok line := rfl
      have hrest : ∀ n, readRecords false (1 + 1) n lines = readRecords false (2 + 1) n lines := fun n =>
        readRecords_lineno (by decide) (by decide) n lines
      rw [readRecords_cons, readRecords_cons, hone, htwo]
      simp only [hrest]

/-- A text behind one that has been accepted and ends a line. -/
theorem readRecords_behind {before : Str} {rs : List Record} (hbefore : before = [] ∨ Terminated before)
    (hrs : readRecords false 1 0 (readLinesFrom false [] false before) = .ok rs) :
    ∃ lineno, (before = [] → lineno = 1) ∧ (before ≠ [] → 1 < lineno) ∧
      ∀ text, ∃ skip, (before = [] → skip = false) ∧
        readRecords false 1 0 (readLinesFrom false [] false (before ++ text)) =
          (readRecords false lineno 0 (readLinesFrom false [] skip text)).map (rs ++ ·) := by
  by_cases hempty : before = []
  · subst hempty
    cases hrs
    refine ⟨1, fun _ => rfl, fun h => absurd rfl h, fun text => ⟨false, fun _ => rfl, ?_⟩⟩
    rw [List.nil_append]
    cases readRecords false 1 0 (readLinesFrom false [] false text) <;> rfl
  · have hterminated := hbefore.resolve_left hempty
    have hlines : readLinesFrom false [] false before ≠ [] := readLinesFrom_ne_nil hterminated
    obtain ⟨k, hpos, hmore⟩ := readRecords_append hrs (Nat.zero_le _)
    refine ⟨1 + k, fun h => absurd h hempty, fun _ => Nat.lt_add_of_pos_right (hpos (List.length_pos_iff.mpr hlines)),
      fun text => ?_⟩
    obtain ⟨skip, happend⟩ : ∃ skip, readLinesFrom false [] false (before ++ text) =
        readLinesFrom false [] false before ++ readLinesFrom false [] skip text :=
      readLinesFrom_append hterminated (fun h => by cases h) text
    exact ⟨skip, fun h => absurd h hempty, by rw [happend, hmore]⟩

/-- The block of an inline file is one record between those of the texts around it. -/
theorem parseConfig_insertFileData {tag content before after : Str} {parser parser' : ConfigParser}
    (htag : ∀ c ∈ tag, TagChar c) (hcr : '\r' ∉ content)
    (hcontent : ∀ line ∈ Str.parts (· = '\n') content, Str.trim line ≠ endTag tag)
    (hbefore : before = [] ∨ Terminated before) (haccepted : parseConfig { text := before } parser = .ok parser')
    (hfirst : before = [] → ∀ line ∈ (Reader.lines { text := after }).head?, firstLine line = .ok line) :
    ∃ rs, readRecords false 1 0 (Reader.lines { text := before }) = .ok rs ∧
      parseConfig { text := before ++ (insertFileData tag (some (INLINE_TAG ++ content)) ++ after) } parser =
        (laterRecords after).map (fun rs' =>
          (rs ++ .option [tag, INLINE_TAG ++ content] :: rs').foldl ConfigParser.store parser) ∧
      parseConfig { text := before ++ after } parser =
        (laterRecords after).map (fun rs' => (rs ++ rs').foldl ConfigParser.store parser) := by
  simp only [parseConfig, Reader.lines, parseLines_eq] at haccepted hfirst ⊢
  cases hrs : readRecords false 1 0 (readLinesFrom false [] false before) with
  | error e => rw [hrs] at haccepted; cases haccepted
  | ok rs =>
      obtain ⟨lineno, hone, hmany, hbehind⟩ := readRecords_behind hbefore hrs
      have hlater : 1 < lineno + 1 := by
        by_cases hempty : before = []
        · rw [hone hempty]; decide
        · exact Nat.lt_succ_of_lt (hmany hempty)
      refine ⟨rs, rfl, ?_, ?_⟩
      · obtain ⟨skip, -, hread⟩ := hbehind (insertFileData tag (some (INLINE_TAG ++ content)) ++ after)
        rw [hread, readRecords_inline htag hcr hcontent, readRecords_laterRecords hlater]
        cases laterRecords after <;> rfl
      · obtain ⟨skip, hskip, hread⟩ := hbehind after
        have hsame : readRecords false lineno 0 (readLinesFrom false [] skip after) = laterRecords after := by
          by_cases hempty : before = []
          · rw [hone hempty, hskip hempty]
            exact readRecords_first (hfirst hempty)
          · exact readRecords_laterRecords (hmany hempty) skip after
        rw [hread, hsame]
        cases laterRecords after <;> rfl

theorem parseConfig_insertFileData_ca :
    ∃ rs, readRecords false 1 0 (Reader.lines { text := "client\n" }) = .ok rs ∧
      parseConfig
          { text := "client\n".toList ++
              (insertFileData "ca" (some (INLINE_TAG ++ "<key>\n# x")) ++ "verb 1".toList) } {} =
        (laterRecords "verb 1").map (fun rs' =>
          (rs ++ .option ["ca", INLINE_TAG ++ "<key>\n# x"] :: rs').foldl ConfigParser.store {}) ∧
      parseConfig { text := "client\n".toList ++ "verb 1".toList } {} =
        (laterRecords "verb 1").map (fun rs' => (rs ++ rs').foldl ConfigParser.store {}) := by
  have haccepted : parseConfig { text := "client\n" } {} =
      .ok { options := [("client", [["client"]])] } := by rfl
  exact parseConfig_insertFileData (by decide) (by decide) (by decide) (.inr ⟨"client", '\n', rfl, .inl rfl⟩)
    haccepted (fun h => by cases h)

/-- Behind a line that has not ended, the tag is part of that line: here of a comment. -/
theorem parseConfig_insertFileData_joined : ¬ ∀ (tag content before after : Str) (parser parser' : ConfigParser),
    (∀ c ∈ tag, TagChar c) → '\r' ∉ content →
    (∀ line ∈ Str.parts (· = '\n') content, Str.trim line ≠ endTag tag) →
    parseConfig { text := before } parser = .ok parser' →
    ∃ rs, readRecords false 1 0 (Reader.lines { text := before }) = .ok rs ∧
      parseConfig { text := before ++ (insertFileData tag (some (INLINE_TAG ++ content)) ++ after) } parser =
        (laterRecords after).map (fun rs' =>
          (rs ++ .option [tag, INLINE_TAG ++ content] :: rs').foldl ConfigParser.store parser) ∧
      parseConfig { text := before ++ after } parser =
        (laterRecords after).map (fun rs' => (rs ++ rs').foldl ConfigParser.store parser) := by
  intro hclaim
  have haccepted : parseConfig { text := "#" } {} = .ok {} := rfl
  obtain ⟨rs, hrs, hblock, -⟩ := hclaim "ca" "x" "#" [] {} {} (by decide) (by decide) (by decide) haccepted
  have herror : parseConfig { text := "#".toList ++ (insertFileData "ca" (some (INLINE_TAG ++ "x")) ++ []) } {} =
      .error (.configParseError "No endtag <//ca> for starttag </ca> found") := rfl
  rw [herror] at hblock
  cases hblock

end AllInSafe.Config
