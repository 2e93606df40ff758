import AllInSafe.Config.Lemmas.Escape
import AllInSafe.Config.Lemmas.ParseLine
import AllInSafe.Management.CommandLine
import AllInSafe.Management.Passwords

/-!
# A credential on the command line
-/

namespace AllInSafe.Management
open AllInSafe.Library AllInSafe.Library.QuotedLine AllInSafe.Config

theorem ne_of_isPrint {c d : Char} (h : isPrint c = true) (hd : isPrint d = false) : c ≠ d := by
  rintro rfl
  rw [h] at hd
  cases hd

/-- None of the characters that have a meaning outside of quotes. -/
theorem plain_of_notMem {c : Char} (h : c ∉ quotedChars) :
    c ≠ '\\' ∧ c ≠ '"' ∧ c ≠ ' ' ∧ c ≠ '#' ∧ c ≠ ';' ∧ c ≠ '\'' := by
  simpa [quotedChars] using h

/-! ## What is kept of a command -/

/-- The bytes that `command_line_add` keeps. -/
def kept (c : Char) : Bool := c ≠ NUL && (isPrint c || c = '\n')

theorem kept_of_wide (c : Char) (h : 0x7F < c.toNat) : kept c = true := by
  have hnul : c ≠ NUL := by rintro rfl; exact absurd h (by decide)
  have hprint : isPrint c = true := by simp [isPrint]; omega
  simp [kept, hnul, hprint]

theorem kept_of_ne {c : Char} (h : c ≠ '\n') : kept c = isPrint c := by
  by_cases hnul : c = NUL
  · subst c; decide
  · simp [kept, hnul, h]

theorem filter_kept {s : Str} (h : '\n' ∉ s) : s.filter kept = s.filter isPrint :=
  List.filter_congr fun _ hc => kept_of_ne fun he => h (he ▸ hc)

theorem foldl_command_line_write {buf s : Str} (h : buf.length + s.length ≤ COMMAND_LINE_SIZE) :
    s.foldl command_line_write buf = buf ++ s := by
  induction s generalizing buf with
  | nil => simp
  | cons c s ih =>
      rw [List.length_cons] at h
      have hroom : buf.length < COMMAND_LINE_SIZE := by omega
      rw [List.foldl_cons, command_line_write, if_pos hroom, ih (by simp; omega)]
      simp

theorem command_line_add_eq {s : Str} (h : (Utf8.octets s).length ≤ COMMAND_LINE_SIZE) :
    command_line_add [] (Utf8.octets s) = Utf8.octets (s.filter kept) := by
  have hle := List.length_filter_le kept (Utf8.octets s)
  have hwrite := @foldl_command_line_write [] ((Utf8.octets s).filter kept) (by simp; omega)
  rw [Utf8.octets_filter kept_of_wide]
  exact hwrite

/-- A line whose bytes are kept is read without its newline. -/
theorem command_line_get_eq {line : Str} (h : ∀ c ∈ line, isPrint c = true) :
    command_line_get (line ++ ['\n']) = some line := by
  have hne : ∀ c ∈ line, c ≠ '\n' := fun c hc => ne_of_isPrint (h c hc) (by decide)
  have htake : (line ++ ['\n']).takeWhile (· ≠ '\n') = line := by
    rw [List.takeWhile_append_of_pos (by simpa using hne)]
    simp
  have hchomp : chompBuffer line = line := by
    rw [chompBuffer, List.reverse_eq_iff]
    cases hr : line.reverse with
    | nil => rfl
    | cons c cs =>
        have hc := h c (by rw [← List.mem_reverse, hr]; simp)
        refine List.dropWhile_cons_of_neg ?_
        simp [ne_of_isPrint hc (show isPrint '\r' = false by decide),
          ne_of_isPrint hc (show isPrint '\n' = false by decide),
          ne_of_isPrint hc (show isPrint NUL = false by decide)]
  rw [command_line_get, if_pos (by simp), htake, hchomp]

/-! ## What is kept of a value -/

theorem filter_escapeChar (s : Str) : (s.flatMap escapeChar).filter isPrint = (s.filter isPrint).flatMap escapeChar := by
  induction s with
  | nil => rfl
  | cons c s ih =>
      rw [List.flatMap_cons, List.filter_append, ih]
      by_cases h₁ : c = '\\'
      · subst c; rfl
      by_cases h₂ : c = '"'
      · subst c; rfl
      cases hp : isPrint c with
      | true => simp [escapeChar, h₁, h₂, hp]
      | false => simp [escapeChar, h₁, h₂, hp]

theorem octets_escapeChar (s : Str) : Utf8.octets (s.flatMap escapeChar) = (Utf8.octets s).flatMap escapeChar := by
  refine Utf8.octets_flatMap (fun c hc d hd => ?_) (fun c hc => ?_) s
  · rw [escapeChar] at hd
    have hslash : ∀ d ∈ ("\\\\" : Str), d.toNat ≤ 0x7F := by decide
    have hquote : ∀ d ∈ ("\\\"" : Str), d.toNat ≤ 0x7F := by decide
    split_ifs at hd
    · exact hslash d hd
    · exact hquote d hd
    · exact List.mem_singleton.mp hd ▸ hc
  · have h₁ : c ≠ '\\' := by rintro rfl; exact absurd hc (by decide)
    have h₂ : c ≠ '"' := by rintro rfl; exact absurd hc (by decide)
    simp [escapeChar, h₁, h₂]

/-- The bytes of a value that are kept. -/
def printed (value : Str) : Str := Utf8.octets (value.filter isPrint)

/-- What is kept of the value as it is written. -/
def printedText (value : Str) : Str :=
  if NeedsQuotes value then '"' :: (printed value).flatMap escapeChar ++ ['"'] else printed value

theorem octets_filter_openVpnEscape {value : Str} (h : '\n' ∉ value) :
    Utf8.octets ((openVpnEscape value).filter isPrint) = printedText value := by
  have hquote : isPrint '"' = true := by decide
  rw [openVpnEscape_eq h, printedText, printed]
  split
  · simp [filter_escapeChar, octets_escapeChar, hquote, Utf8.octets_cons_of_le (show '"'.toNat ≤ 0x7F by decide)]
  · rfl

/-! ## The parameters of a command -/

/-- A value with nothing left to read is no parameter. -/
def valueParams (value : Str) : List Param :=
  if NeedsQuotes value then [⟨quotedPieces (printed value), true⟩]
  else if printed value = [] then []
  else [⟨(printed value).map (Piece.mk false), true⟩]

theorem mem_octets_filter {s : Str} {c : Char} (h : c ∈ Utf8.octets (s.filter isPrint)) :
    isPrint c = true ∧ (c ∈ s ∨ 0x7F < c.toNat) := by
  rcases Utf8.mem_octets h with hc | hc
  · rw [List.mem_filter] at hc
    exact ⟨hc.2, .inl hc.1⟩
  · have hkept := kept_of_wide c hc
    have hne : c ≠ '\n' := by rintro rfl; exact absurd hc (by decide)
    rw [kept_of_ne hne] at hkept
    exact ⟨hkept, .inr hc⟩

theorem cspace_eq_false {c : Char} (h : isPrint c = true) (hspace : c ≠ ' ') : cspace c = false := by
  have hnul : c ≠ NUL := ne_of_isPrint h (by decide)
  simp only [isPrint, Bool.and_eq_true, decide_eq_true_eq] at h
  simp [cspace, isspace, hnul, hspace]
  omega

theorem printed_plain {value : Str} (h : ¬ NeedsQuotes value) {c : Char} (hc : c ∈ printed value) :
    cspace c = false ∧ c ∉ quotedChars := by
  obtain ⟨hprint, hmem⟩ := mem_octets_filter hc
  have hquoted : c ∉ quotedChars := by
    rcases hmem with hmem | hwide
    · exact fun hq => h (.inr ⟨c, hmem, hq⟩)
    · intro hq
      have hall : ∀ d ∈ quotedChars, d.toNat ≤ 0x7F := by decide
      exact absurd (hall c hq) (by omega)
  exact ⟨cspace_eq_false hprint (plain_of_notMem hquoted).2.2.1, hquoted⟩

theorem lex_plain_word {word : Str} (hne : word ≠ []) (h : ∀ c ∈ word, cspace c = false ∧ c ∉ quotedChars) (cs : Str) :
    lex cspace (.between false) (word ++ cs) = lex cspace (.bare (word.map (Piece.mk false)) false) cs := by
  refine lex_word hne (fun c hc => ⟨(plain_of_notMem (h c hc).2).1, (h c hc).1⟩) (fun c hc => ?_) cs
  obtain ⟨-, hquote, -, hhash, hsemicolon, hsingle⟩ := plain_of_notMem (h c hc).2
  exact ⟨hquote, hsingle, hsemicolon, hhash⟩

theorem lex_printedText (value : Str) :
    lex cspace (.between false) (printedText value) = valueParams value := by
  rw [printedText, valueParams]
  by_cases hq : NeedsQuotes value
  · have hlex := @lex_in_quotes cspace (by decide) (printed value) []
    rw [List.append_nil] at hlex
    rw [if_pos hq, if_pos hq, hlex]
    rfl
  rw [if_neg hq, if_neg hq]
  by_cases hnil : printed value = []
  · rw [if_pos hnil, hnil]
    rfl
  · have hword := lex_plain_word hnil (fun c => printed_plain hq) []
    rw [List.append_nil] at hword
    rw [if_neg hnil, hword]
    rfl

/-- A text of ASCII that is kept, without single quotes. -/
def Name (s : Str) : Prop := ∀ c ∈ s, isPrint c = true ∧ c.toNat ≤ 0x7F ∧ c ≠ '\''

/-- A text of ASCII that is kept and needs no quotes. -/
def Word (s : Str) : Prop := s ≠ [] ∧ ∀ c ∈ s, isPrint c = true ∧ c.toNat ≤ 0x7F ∧ c ∉ quotedChars

instance {s : Str} : Decidable (Name s) := inferInstanceAs (Decidable (∀ c ∈ s, _))

instance {s : Str} : Decidable (Word s) := inferInstanceAs (Decidable (_ ∧ _))

variable {cmd needed value : Str}

theorem Word.name (h : Word cmd) : Name cmd :=
  fun c hc => ⟨(h.2 c hc).1, (h.2 c hc).2.1, (plain_of_notMem (h.2 c hc).2.2).2.2.2.2.2⟩

theorem Name.filter_kept (h : Name needed) : needed.filter kept = needed := by
  refine List.filter_eq_self.mpr fun c hc => ?_
  rw [kept_of_ne (ne_of_isPrint (h c hc).1 (by decide))]
  exact (h c hc).1

theorem Name.octets (h : Name needed) : Utf8.octets needed = needed := Utf8.octets_of_le fun c hc => (h c hc).2.1

/-- The line that OpenVPN reads. -/
def commandLine (cmd needed value : Str) : Str := cmd ++ (" '" ++ (needed ++ ("' " ++ printedText value)))

theorem octets_filter_credentialCommand (hcmd : Name cmd) (hneeded : Name needed) (hvalue : '\n' ∉ value) :
    Utf8.octets ((credentialCommand cmd needed value).filter kept) = commandLine cmd needed value ++ ['\n'] := by
  have hescape : '\n' ∉ openVpnEscape value := by
    intro hm
    rcases mem_openVpnEscape hvalue hm with hm | hm | hm
    · exact hvalue hm
    all_goals exact absurd hm (by decide)
  have h₁ : (" '" : Str).filter kept = " '" ∧ Utf8.octets (" '" : Str) = " '" := by decide
  have h₂ : ("' " : Str).filter kept = "' " ∧ Utf8.octets ("' " : Str) = "' " := by decide
  have h₃ : ("\n" : Str).filter kept = "\n" ∧ Utf8.octets ("\n" : Str) = ['\n'] := by decide
  simp only [credentialCommand, commandLine, List.filter_append, Utf8.octets_append, hcmd.filter_kept, hcmd.octets,
    hneeded.filter_kept, hneeded.octets, filter_kept hescape, octets_filter_openVpnEscape hvalue, h₁, h₂, h₃,
    List.append_assoc]

theorem isPrint_commandLine (hcmd : Name cmd) (hneeded : Name needed) (hvalue : '\n' ∉ value) :
    ∀ c ∈ commandLine cmd needed value, isPrint c = true := by
  have h₁ : ∀ c ∈ (" '" : Str), isPrint c = true := by decide
  have h₂ : ∀ c ∈ ("' " : Str), isPrint c = true := by decide
  simp only [commandLine, List.forall_mem_append]
  refine ⟨fun c hc => (hcmd c hc).1, h₁, fun c hc => (hneeded c hc).1, h₂, fun c hc => ?_⟩
  rw [← octets_filter_openVpnEscape hvalue] at hc
  exact (mem_octets_filter hc).1

/-- The command, the name in quotes, and the value. -/
theorem params_commandLine (hcmd : Word cmd) (hneeded : Name needed) :
    params cspace (commandLine cmd needed value) =
      ⟨cmd.map (Piece.mk false), true⟩ :: ⟨needed.map (Piece.mk false), true⟩ :: valueParams value := by
  have hplain : ∀ c ∈ cmd, cspace c = false ∧ c ∉ quotedChars := fun c hc => by
    obtain ⟨hprint, -, hnot⟩ := hcmd.2 c hc
    exact ⟨cspace_eq_false hprint (plain_of_notMem hnot).2.2.1, hnot⟩
  have hquote : '\'' ∉ needed := fun hm => (hneeded _ hm).2.2 rfl
  have hspace : (Place.between false).next cspace ' ' = .go (.between false) := by decide
  calc params cspace (commandLine cmd needed value)
      = lex cspace (.bare (cmd.map (Piece.mk false)) false)
          (' ' :: '\'' :: (needed ++ '\'' :: ' ' :: printedText value)) :=
        lex_plain_word hcmd.1 hplain _
    _ = ⟨cmd.map (Piece.mk false), true⟩ ::
          lex cspace (.between false) ('\'' :: (needed ++ '\'' :: ' ' :: printedText value)) :=
        lex_bare_space (by decide) (by decide) _
    _ = ⟨cmd.map (Piece.mk false), true⟩ :: ⟨needed.map (Piece.mk false), true⟩ ::
          lex cspace (.between false) (' ' :: printedText value) := by
        rw [lex_in_single (by decide) hquote]
    _ = _ := by rw [lex_go hspace, lex_printedText]

theorem valueParams_text (value : Str) :
    (valueParams value).map Param.text = if NeedsQuotes value ∨ printed value ≠ [] then [printed value] else [] := by
  rw [valueParams]
  split_ifs <;> simp_all [Param.text, quotedPieces, Function.comp_def]

theorem mem_valueParams {q : Param} (hq : q ∈ valueParams value) :
    q.closed = true ∧ q.pieces.length = (printed value).length ∧ ∀ p ∈ q.pieces, ¬ p.Bad cspace := by
  rw [valueParams] at hq
  split_ifs at hq
  · rw [List.mem_singleton] at hq
    subst hq
    refine ⟨rfl, by simp [quotedPieces], ?_⟩
    simp only [quotedPieces, List.mem_map]
    rintro p ⟨c, -, rfl⟩ ⟨he, h₁, h₂, -⟩
    simp_all
  · cases hq
  · rw [List.mem_singleton] at hq
    subst hq
    simp [Piece.Bad]

/-! ## The whole way -/

theorem length_octets_openVpnEscape (h : '\n' ∉ value) :
    (Utf8.octets (openVpnEscape value)).length ≤ 2 * (Utf8.octets value).length + 2 := by
  have hquote : '"'.toNat ≤ 0x7F := by decide
  have hcount := List.countP_le_length (p := fun c => c = '\\' || c = '"') (l := Utf8.octets value)
  have hlength := length_flatMap_escapeChar (Utf8.octets value)
  rw [openVpnEscape_eq h]
  split
  · simp [octets_escapeChar, Utf8.octets_cons_of_le hquote, hlength]
    omega
  · omega

theorem length_printed_le (value : Str) : (printed value).length ≤ (Utf8.octets value).length := by
  rw [printed, Utf8.octets_filter fun c hc => ?_]
  · exact List.length_filter_le isPrint _
  · simp [isPrint]
    omega

theorem length_credentialCommand (hcmd : Name cmd) (hneeded : Name needed) (hvalue : '\n' ∉ value) :
    (Utf8.octets (credentialCommand cmd needed value)).length ≤
      cmd.length + needed.length + 2 * (Utf8.octets value).length + 7 := by
  have h₁ : (Utf8.octets (" '" : Str)).length = 2 := by decide
  have h₂ : (Utf8.octets ("' " : Str)).length = 2 := by decide
  have h₃ : (Utf8.octets ("\n" : Str)).length = 1 := by decide
  have hescape := length_octets_openVpnEscape hvalue
  simp only [credentialCommand, Utf8.octets_append, List.length_append, hcmd.octets, hneeded.octets, h₁, h₂, h₃]
  omega

theorem parse_commandLine (hcmd : Word cmd) (hneeded : Name needed) (hvalue : '\n' ∉ value)
    (hshort : cmd.length + needed.length ≤ OPTION_PARM_SIZE)
    (hsize : (Utf8.octets value).length ≤ OPTION_PARM_SIZE) :
    (man_process_command (commandLine cmd needed value)).toOption =
      some (cmd :: needed :: if NeedsQuotes value ∨ printed value ≠ [] then [printed value] else []) := by
  have hnul : ∀ c ∈ commandLine cmd needed value, c ≠ NUL := fun c hc =>
    ne_of_isPrint (isPrint_commandLine hcmd.name hneeded hvalue c hc) (by decide)
  have hprinted := length_printed_le value
  have hvalues : (valueParams value).length ≤ 1 := by
    have htext := congrArg List.length (valueParams_text value)
    rw [List.length_map] at htext
    rw [htext]
    split <;> simp
  have hfits : Fits OPTION_PARM_SIZE MAX_PARMS (params cspace (commandLine cmd needed value)) := by
    rw [params_commandLine hcmd hneeded]
    refine ⟨by simp [MAX_PARMS]; omega, ?_⟩
    simp only [List.forall_mem_cons, List.length_map]
    refine ⟨by omega, by omega, fun q hq => ?_⟩
    rw [(mem_valueParams hq).2.1]
    omega
  have hwell : ¬ (HasBad cspace (params cspace (commandLine cmd needed value)) ∨
      ∃ q ∈ params cspace (commandLine cmd needed value), q.closed = false) := by
    rw [params_commandLine hcmd hneeded]
    rintro (⟨q, hq, p, hp, hbad⟩ | ⟨q, hq, hopen⟩)
    · simp only [List.mem_cons] at hq
      rcases hq with rfl | rfl | hq
      · obtain ⟨c, -, rfl⟩ := List.mem_map.mp hp
        cases hbad.1
      · obtain ⟨c, -, rfl⟩ := List.mem_map.mp hp
        cases hbad.1
      · exact (mem_valueParams hq).2.2 p hp hbad
    · simp only [List.mem_cons] at hq
      rcases hq with rfl | rfl | hq
      · cases hopen
      · cases hopen
      · rw [(mem_valueParams hq).1] at hopen
        cases hopen
  rw [man_process_command, parse_line_eq hnul hfits, parseLineResult, if_neg hwell, params_commandLine hcmd hneeded,
    List.map_cons, List.map_cons, valueParams_text]
  simp [Param.text, Function.comp_def]

/-- What OpenVPN reads of a command with a credential. -/
theorem received_credentialCommand (hcmd : Word cmd) (hneeded : Name needed) (hvalue : '\n' ∉ value)
    (hshort : cmd.length + needed.length ≤ OPTION_PARM_SIZE)
    (hsize : (Utf8.octets value).length ≤ OPTION_PARM_SIZE) :
    received (credentialCommand cmd needed value) =
      some (cmd :: needed :: if NeedsQuotes value ∨ printed value ≠ [] then [printed value] else []) := by
  have hlength := length_credentialCommand hcmd.name hneeded hvalue
  have hroom : (Utf8.octets (credentialCommand cmd needed value)).length ≤ COMMAND_LINE_SIZE := by
    simp only [OPTION_PARM_SIZE, COMMAND_LINE_SIZE] at hshort hsize ⊢
    omega
  rw [received, command_line_add_eq hroom, octets_filter_credentialCommand hcmd.name hneeded hvalue,
    command_line_get_eq (isPrint_commandLine hcmd.name hneeded hvalue), Option.bind_some,
    parse_commandLine hcmd hneeded hvalue hshort hsize]

/-- A value arrives as it is exactly when it has no control character. -/
theorem received_eq_iff (hcmd : Word cmd) (hneeded : Name needed) (hvalue : '\n' ∉ value)
    (hshort : cmd.length + needed.length ≤ OPTION_PARM_SIZE)
    (hsize : (Utf8.octets value).length ≤ OPTION_PARM_SIZE) :
    received (credentialCommand cmd needed value) = some [cmd, needed, Utf8.octets value] ↔
      ∀ c ∈ value, isPrint c = true := by
  have hself : printed value = Utf8.octets value ↔ ∀ c ∈ value, isPrint c = true := by
    rw [← List.filter_eq_self]
    exact ⟨Utf8.octets_injective, fun h => by rw [printed, h]⟩
  rw [received_credentialCommand hcmd hneeded hvalue hshort hsize, ← hself]
  by_cases hread : NeedsQuotes value ∨ printed value ≠ []
  · simp [hread]
  · rw [if_neg hread]
    rw [not_or, not_ne_iff] at hread
    refine iff_of_false (by simp) fun he => hread.1 (.inl (Utf8.octets_injective ?_))
    rw [← he, hread.2]
    rfl

end AllInSafe.Management
