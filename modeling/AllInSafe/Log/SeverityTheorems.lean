import AllInSafe.Log.OpenVPNThread

/-!
# The severity of the process's lines
-/

namespace AllInSafe.Log
open AllInSafe.Library Regex

/-! ## Lines -/

/-- A line of the form `<digits>.<digits> <hexflags> <message>`. -/
structure ProcessLine where
  seconds : Str
  fraction : Str
  flags : Str
  message : Str
  seconds_digits : seconds ≠ [] ∧ ∀ c ∈ seconds, isDecimal c = true
  fraction_digits : fraction ≠ [] ∧ ∀ c ∈ fraction, isDecimal c = true
  flags_digits : flags ≠ [] ∧ flags.length ≤ 8 ∧ ∀ c ∈ flags, isHex c = true
  flags_lt : ∀ word, Ipv6Text.number 16 flags = some word → word < 2 ^ 31
  one_line : '\n' ∉ message ∧ '\r' ∉ message

namespace ProcessLine

def text (l : ProcessLine) : Str := l.seconds ++ '.' :: (l.fraction ++ ' ' :: (l.flags ++ ' ' :: l.message))

/-- The whole flag word. -/
def word (l : ProcessLine) : Nat := (Ipv6Text.number 16 l.flags).getD 0

/-- The item logged for the line has the level, the verbosity and the message that it says. -/
def KeepsSeverity (l : ProcessLine) (now : BitVec 64) (mDumpPath : Option Str) : Prop :=
  ∃ path hints, handleLine now mDumpPath l.text =
    some (path, logMessageOpenVPN now (logStatus l.word) (logLevel l.word l.message) l.message :: hints)

/-- The last but one digit of the flags has the bits of the four levels. -/
def HasNoLevel (l : ProcessLine) : Prop := l.word / 16 % 16 = 0

/-! ## The match -/

variable {l : ProcessLine} {r : Attempt} {s : Str} {g : Groups}

/-- What an attempt of the pattern has taken. -/
theorem mem_LOG_PATTERN : r ∈ attempts LOG_PATTERN g s ↔
    ∃ (seconds fraction front : Str) (point last : Char) (message : Str),
      seconds ≠ [] ∧ (∀ c ∈ seconds, isDecimal c = true) ∧ isTerminator point = false ∧
      fraction ≠ [] ∧ (∀ c ∈ fraction, isDecimal c = true) ∧ (∀ c ∈ front ++ [last], isHex c = true) ∧
      (∀ c ∈ message, isTerminator c = false) ∧
      s = seconds ++ point :: (fraction ++ ' ' :: (front ++ [last] ++ ' ' :: (message ++ r.2))) ∧
      r.1 = (((g.set 1 seconds).set 2 fraction).set 3 [last]).set 4 message := by
  simp only [LOG_PATTERN, mem_seq, anyChar, mem_group_plus, mem_group_star, mem_plus_group, mem_one]
  constructor
  · rintro ⟨⟨g₁, s₁⟩, ⟨seconds, hne, hseconds, hs, hg₁⟩, ⟨g₂, s₂⟩, ⟨point, hpoint, hs₁, hg₂⟩, ⟨g₃, s₃⟩,
      ⟨fraction, hne', hfraction, hs₂, hg₃⟩, ⟨g₄, s₄⟩, ⟨space, hspace, hs₃, hg₄⟩, ⟨g₅, s₅⟩,
      ⟨front, last, hflags, hs₄, hg₅⟩, ⟨g₆, s₆⟩, ⟨space', hspace', hs₅, hg₆⟩, message, hmessage, hs₆, hg⟩
    dsimp only at hs hg₁ hs₁ hg₂ hs₂ hg₃ hs₃ hg₄ hs₄ hg₅ hs₅ hg₆ hs₆ hg
    obtain rfl := of_decide_eq_true hspace
    obtain rfl := of_decide_eq_true hspace'
    subst hg₁ hg₂ hg₃ hg₄ hg₅ hg₆ hs₆ hs₅ hs₄ hs₃ hs₂ hs₁
    exact ⟨seconds, fraction, front, point, last, message, hne, hseconds, by simpa using hpoint, hne', hfraction, hflags,
      by simpa using hmessage, hs, hg⟩
  · rintro ⟨seconds, fraction, front, point, last, message, hne, hseconds, hpoint, hne', hfraction, hflags, hmessage,
      hs, hg⟩
    exact ⟨⟨_, _⟩, ⟨seconds, hne, hseconds, hs, rfl⟩, ⟨_, _⟩, ⟨point, by simpa using hpoint, rfl, rfl⟩, ⟨_, _⟩,
      ⟨fraction, hne', hfraction, rfl, rfl⟩, ⟨_, _⟩, ⟨' ', rfl, rfl, rfl⟩, ⟨_, _⟩, ⟨front, last, hflags, rfl, rfl⟩, ⟨_, _⟩,
      ⟨' ', rfl, rfl, rfl⟩, message, by simpa using hmessage, rfl, hg⟩

/-- The pieces of an attempt that takes the whole line are those of the line. -/
theorem pieces_unique {seconds fraction flags : Str} {point : Char} {message : Str}
    (hseconds : seconds ≠ [] ∧ ∀ c ∈ seconds, isDecimal c = true)
    (hfraction : fraction ≠ [] ∧ ∀ c ∈ fraction, isDecimal c = true) (hflags : ∀ c ∈ flags, isHex c = true)
    (h : l.text = seconds ++ point :: (fraction ++ ' ' :: (flags ++ ' ' :: message))) :
    seconds = l.seconds ∧ fraction = l.fraction ∧ flags = l.flags ∧ message = l.message := by
  have hdot : isDecimal '.' = false := by decide
  have hspace : isDecimal ' ' = false := by decide
  cases hpoint : isDecimal point with
  | true =>
      -- The digits would go on up to the space.
      have hdigits : ∀ c ∈ seconds ++ point :: fraction, isDecimal c = true := by
        intro c hc
        rcases List.mem_append.mp hc with hc | hc
        · exact hseconds.2 c hc
        · rcases List.mem_cons.mp hc with rfl | hc
          · exact hpoint
          · exact hfraction.2 c hc
      have hword : l.text = seconds ++ point :: fraction ++ ' ' :: (flags ++ ' ' :: message) := by simpa using h
      have hends := (Str.append_cons_inj_class l.seconds_digits.2 hdigits hdot hspace hword).2.1
      cases hends
  | false =>
      obtain ⟨hs, -, hrest⟩ := Str.append_cons_inj_class l.seconds_digits.2 hseconds.2 hdot hpoint h
      obtain ⟨hf, -, hrest⟩ := Str.append_cons_inj_class l.fraction_digits.2 hfraction.2 hspace hspace hrest
      obtain ⟨hw, -, hm⟩ := Str.append_cons_inj_class l.flags_digits.2.2 hflags (by decide) (by decide) hrest
      exact ⟨hs.symm, hf.symm, hw.symm, hm.symm⟩

/-- What the groups of a line keep: of the flags, only the last digit. -/
def groupsOf (l : ProcessLine) (last : Char) : Groups :=
  (((Groups.set (fun _ => none) 1 l.seconds).set 2 l.fraction).set 3 [last]).set 4 l.message

theorem firstMatch_text {front : Str} {last : Char} (hflags : l.flags = front ++ [last])
    (hmessage : ∀ c ∈ l.message, isTerminator c = false) :
    ∃ g, firstMatch LOG_PATTERN l.text = some g ∧ g 3 = some [last] ∧ g 4 = some l.message := by
  have hwhole : (groupsOf l last, []) ∈ attempts LOG_PATTERN (fun _ => none) l.text := by
    refine mem_LOG_PATTERN.mpr ⟨l.seconds, l.fraction, front, '.', last, l.message, l.seconds_digits.1,
      l.seconds_digits.2, by decide, l.fraction_digits.1, l.fraction_digits.2, ?_, hmessage, ?_, rfl⟩
    · rw [← hflags]
      exact l.flags_digits.2.2
    · simp [text, hflags]
  refine ⟨groupsOf l last, firstMatch_eq_some hwhole rfl ?_, rfl, rfl⟩
  intro r hr hall
  obtain ⟨seconds, fraction, front', point, last', message, hne, hseconds, -, hne', hfraction, hhex, -, hs, hg⟩ :=
    mem_LOG_PATTERN.mp hr
  rw [hall, List.append_nil] at hs
  obtain ⟨rfl, rfl, hw, rfl⟩ := pieces_unique ⟨hne, hseconds⟩ ⟨hne', hfraction⟩ hhex hs
  rw [hflags] at hw
  obtain ⟨rfl, hlast⟩ := List.append_inj' hw rfl
  rw [hg, List.singleton_inj.mp hlast]
  rfl

theorem firstMatch_text_none (hmessage : ¬ ∀ c ∈ l.message, isTerminator c = false) :
    firstMatch LOG_PATTERN l.text = none := by
  refine firstMatch_eq_none fun r hr hall => hmessage ?_
  obtain ⟨seconds, fraction, front, point, last, message, hne, hseconds, -, hne', hfraction, hhex, hclear, hs, -⟩ :=
    mem_LOG_PATTERN.mp hr
  rw [hall, List.append_nil] at hs
  obtain ⟨-, -, -, rfl⟩ := pieces_unique ⟨hne, hseconds⟩ ⟨hne', hfraction⟩ hhex hs
  exact hclear

/-! ## The flag word -/

theorem hexValue_of_isHex {c : Char} (h : isHex c = true) : ∃ v < 16, Ipv6Text.hexValue c = some v := by
  have hall : ∀ n < 128, isHex (Char.ofNat n) = true → ∃ v < 16, Ipv6Text.hexValue (Char.ofNat n) = some v := by decide
  have hlt : c.toNat < 128 := by
    simp only [isHex, isDecimal, Bool.or_eq_true, Bool.and_eq_true, decide_eq_true_eq, Char.le_def,
      UInt32.le_iff_toNat_le] at h
    change c.val.toNat < 128
    rcases h with ⟨-, h⟩ | ⟨-, h⟩
    · exact lt_of_le_of_lt h (by decide)
    · exact lt_of_le_of_lt h (by decide)
  have hc := hall c.toNat hlt
  rw [Char.ofNat_toNat] at hc
  exact hc h

theorem number_of_isHex (h : ∀ c ∈ s, isHex c = true) : ∃ n, Ipv6Text.number 16 s = some n := by
  induction s using List.reverseRecOn with
  | nil => exact ⟨0, rfl⟩
  | append_singleton s c ih =>
      obtain ⟨n, hn⟩ := ih fun d hd => h d (List.mem_append_left _ hd)
      obtain ⟨v, hlt, hv⟩ := hexValue_of_isHex (h c (by simp))
      exact ⟨16 * n + v, by simp [Ipv6Text.number_append, hn, hv, hlt]⟩

/-- The last digit is what is left of the word. -/
theorem word_mod {front : Str} {last : Char} (hflags : l.flags = front ++ [last]) :
    parseHex [last] = some (l.word % 16) := by
  have hhex := l.flags_digits.2.2
  rw [hflags] at hhex
  obtain ⟨n, hn⟩ := number_of_isHex fun c hc => hhex c (List.mem_append_left _ hc)
  obtain ⟨v, hlt, hv⟩ := hexValue_of_isHex (hhex last (by simp))
  have hnumber : Ipv6Text.number 16 (front ++ [last]) = some (16 * n + v) := by
    simp [Ipv6Text.number_append, hn, hv, hlt]
  have hword : l.word = 16 * n + v := by rw [word, hflags, hnumber, Option.getD_some]
  have hmod : l.word % 16 = v := by omega
  have hsmall : v < 2147483648 := by omega
  rw [hmod]
  simp [parseHex, Ipv6Text.number, hv, hlt, hsmall]

theorem and_two_pow_ne_zero (n i : Nat) : n &&& 1 <<< i ≠ 0 ↔ n / 2 ^ i % 2 = 1 := by
  rw [Nat.one_shiftLeft, Nat.and_two_pow, Nat.testBit_eq_decide_div_mod_eq]
  by_cases h : n / 2 ^ i % 2 = 1 <;> simp [h]

theorem logStatus_eq_INFO_iff (flags : Nat) : logStatus flags = .INFO ↔ flags / 16 % 16 = 0 := by
  simp only [logStatus, M_FATAL, M_NONFATAL, M_WARN, M_DEBUG, and_two_pow_ne_zero]
  split_ifs <;> simp <;> omega

theorem logLevel_mod (flags : Nat) (msg : Str) : logLevel (flags % 16) msg = logLevel flags msg := by
  have hmod : flags % 16 &&& 0x0F = flags &&& 0x0F := by
    have hmask : ∀ n : Nat, n &&& 0x0F = n % 16 := fun n => Nat.and_two_pow_sub_one_eq_mod n 4
    rw [hmask, hmask, Nat.mod_mod]
  rw [logLevel, logLevel, hmod]

/-! ## The item -/

/-- The level is taken from the last digit alone, so a line keeps its severity exactly when it has the level of no bit
and its message has no line terminator. -/
theorem keepsSeverity_iff (l : ProcessLine) (now : BitVec 64) (mDumpPath : Option Str) :
    l.KeepsSeverity now mDumpPath ↔ (∀ c ∈ l.message, isTerminator c = false) ∧ l.HasNoLevel := by
  by_cases hmessage : ∀ c ∈ l.message, isTerminator c = false
  · obtain ⟨front, last, hflags⟩ : ∃ front last, l.flags = front ++ [last] :=
      ⟨_, _, (List.dropLast_append_getLast l.flags_digits.1).symm⟩
    obtain ⟨g, hmatch, hdigit, htext⟩ := firstMatch_text hflags hmessage
    have hinfo : logStatus (l.word % 16) = .INFO := (logStatus_eq_INFO_iff _).mpr (by omega)
    have hline : ∃ path, handleLine now mDumpPath l.text = some (path, logMessageOpenVPN now .INFO
        (logLevel l.word l.message) l.message :: addExtraHints now l.message) := by
      rw [handleLine, hmatch]
      simp [hdigit, htext, word_mod hflags, hinfo, logLevel_mod]
    obtain ⟨path, hline⟩ := hline
    rw [KeepsSeverity, HasNoLevel, ← logStatus_eq_INFO_iff, hline]
    rw [and_iff_right hmessage]
    constructor
    · rintro ⟨path', hints, heq⟩
      have hlevel := congrArg (fun p => p.2.head?.bind LogItem.mLevel) (Option.some.inj heq)
      simpa [logMessageOpenVPN, eq_comm] using hlevel
    · intro hlevel
      exact ⟨path, addExtraHints now l.message, by rw [hlevel]⟩
  · have hline := firstMatch_text_none hmessage
    simp only [hmessage, false_and, iff_false]
    rintro ⟨path, hints, heq⟩
    simp only [handleLine, hline] at heq
    have htext := congrArg (fun p => p.2.head?.bind LogItem.mMessage) (Option.some.inj heq)
    simp only [logInfo, logMessageOpenVPN, List.head?_cons, Option.bind_some, Option.some.injEq] at htext
    have hlength := congrArg List.length htext
    simp only [text, List.length_append, List.length_cons] at hlength
    omega

/-- A line with the bit of a warning. -/
def warning : ProcessLine where
  seconds := "1380308330"
  fraction := "240114"
  flags := "40"
  message := "route gateway is not reachable"
  seconds_digits := by decide
  fraction_digits := by decide
  flags_digits := by decide
  flags_lt := fun word h => by cases h; decide
  one_line := by decide

/-- The warning is logged as an information. -/
theorem warning_logged_as_info :
    logStatus warning.word = .WARNING ∧ handleLine 0 none warning.text =
      some (none, [logMessageOpenVPN 0 .INFO 0 warning.message]) ∧ ¬ warning.KeepsSeverity 0 none := by
  have hwarning : logStatus warning.word = .WARNING := by decide
  have hline : handleLine 0 none warning.text = some (none, [logMessageOpenVPN 0 .INFO 0 warning.message]) := by
    decide +kernel
  refine ⟨hwarning, hline, fun ⟨path, hints, heq⟩ => ?_⟩
  rw [hline] at heq
  have hlevel := congrArg (fun p => p.2.head?.bind LogItem.mLevel) (Option.some.inj heq)
  simp [logMessageOpenVPN, hwarning] at hlevel

end ProcessLine

end AllInSafe.Log
