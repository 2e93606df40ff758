import AllInSafe.Config.Importer

/-!
# Numbers written and read
-/

namespace AllInSafe.Config
open AllInSafe.Library

theorem digits_concat (s : Str) (c : Char) :
    digits (s ++ [c]) = (digits s).bind fun n => (digit c).map (10 * n + ·) := by
  simp [digits]

theorem digit_digitChar {d : Nat} (h : d < 10) : digit d.digitChar = some d := by
  revert d
  decide

theorem digits_decimal (n : Nat) : digits (decimal n) = some n := by
  rw [decimal, Nat.toList_repr]
  induction n using Nat.strongRecOn with
  | ind n ih =>
      rw [Nat.toDigits_eq_if (by decide)]
      split
      case isTrue hlt =>
          have hdigit := digit_digitChar hlt
          simp [digits, hdigit]
      case isFalse hge =>
          have hlast := digit_digitChar (Nat.mod_lt n (by decide : 0 < 10))
          have hdiv : n / 10 < n := Nat.div_lt_self (by omega) (by decide)
          simp [digits_concat, ih (n / 10) hdiv, hlast]
          omega

theorem decimal_ne_nil (n : Nat) : decimal n ≠ [] := by
  simp [decimal, Nat.toList_repr]

theorem isDigit_of_mem_decimal {n : Nat} {c : Char} (h : c ∈ decimal n) : c.isDigit = true := by
  rw [decimal, Nat.toList_repr] at h
  exact Nat.isDigit_of_mem_toDigits (by decide) (by decide) h

/-- A text of digits has no sign. -/
theorem parseInteger_decimal {bits n : Nat} (h : n < 2 ^ (bits - 1)) : parseInteger bits (decimal n) = .ok n := by
  have hdigits := digits_decimal n
  obtain ⟨c, cs, hcons⟩ := List.exists_cons_of_ne_nil (decimal_ne_nil n)
  have hdigit : c.isDigit = true := isDigit_of_mem_decimal (by rw [hcons]; exact List.mem_cons_self)
  have hminus : c ≠ '-' := by rintro rfl; revert hdigit; decide
  have hplus : c ≠ '+' := by rintro rfl; revert hdigit; decide
  have hrange : -2 ^ (bits - 1) ≤ (n : Int) ∧ (n : Int) < 2 ^ (bits - 1) := by
    constructor
    · have hpos : (0 : Int) ≤ 2 ^ (bits - 1) := by positivity
      omega
    · exact_mod_cast h
  rw [hcons] at hdigits
  simp only [parseInteger, hcons]
  split
  case h_1 value hvalue =>
      split at hvalue
      all_goals simp_all
  case h_2 hvalue =>
      split at hvalue
      all_goals simp_all

theorem decimal_inj {m n : Nat} (h : decimal m = decimal n) : m = n := by
  have hdigits := congrArg digits h
  rw [digits_decimal, digits_decimal] at hdigits
  exact Option.some.inj hdigits

theorem decimal_of_lt {n : Nat} (h : n < 10) : decimal n = [n.digitChar] := by
  rw [decimal, Nat.toList_repr, Nat.toDigits_of_lt_base h]

/-- One more digit. -/
theorem decimal_concat {n d : Nat} (hn : 0 < n) (hd : d < 10) : decimal (10 * n + d) = decimal n ++ [d.digitChar] := by
  rw [← decimal_of_lt hd]
  simp only [decimal, Nat.toList_repr]
  exact (Nat.toDigits_append_toDigits (by decide) hn hd).symm

end AllInSafe.Config
