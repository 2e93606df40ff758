import Mathlib.Data.Nat.ModEq
import Mathlib.Tactic.Common

/-!
# Aligned blocks of numbers, and clearing and setting low bits

A block starts at a multiple of its size. Where the size of one block divides that of another one, the two are
nested or disjoint.
-/

namespace AllInSafe.Library.Blocks

/-- The smaller one of two blocks that share a number lies in the larger one. -/
theorem nested {a b d e x : Nat} (ha : d ∣ a) (hb : e ∣ b) (hde : d ∣ e) (hxa : a ≤ x ∧ x < a + d)
    (hxb : b ≤ x ∧ x < b + e) : b ≤ a ∧ a + d ≤ b + e := by
  have hda : a ≡ 0 [MOD d] := (Nat.modEq_zero_iff_dvd).mpr ha
  have hdb : b ≡ 0 [MOD d] := (Nat.modEq_zero_iff_dvd).mpr (Nat.dvd_trans hde hb)
  have hdbe : b + e ≡ 0 [MOD d] := (Nat.modEq_zero_iff_dvd).mpr (Nat.dvd_add (Nat.dvd_trans hde hb) hde)
  exact ⟨(hdb.trans hda.symm).le_of_lt_add (Nat.lt_of_le_of_lt hxb.1 hxa.2),
    (hda.trans hdbe.symm).add_le_of_lt (Nat.lt_of_le_of_lt hxa.1 hxb.2)⟩

/-! ## Single bits -/

def setBit (a i : Nat) : Nat :=
  if a.testBit i then a else a + 2 ^ i

def clearBit (a i : Nat) : Nat :=
  if a.testBit i then a - 2 ^ i else a

theorem clearBit_low (a n : Nat) : clearBit (2 ^ n * (a / 2 ^ n)) n = 2 ^ (n + 1) * (a / 2 ^ (n + 1)) := by
  have hpos : 0 < 2 ^ n := Nat.two_pow_pos n
  rw [clearBit, Nat.testBit_eq_decide_div_mod_eq, Nat.mul_div_cancel_left _ hpos, Nat.pow_succ, ← Nat.div_div_eq_div_mul]
  generalize a / 2 ^ n = q
  have hq : q = 2 * (q / 2) + q % 2 := (Nat.div_add_mod q 2).symm
  split <;> rename_i hbit <;> simp only [decide_eq_true_eq] at hbit
  · rw [hbit] at hq
    calc 2 ^ n * q - 2 ^ n = 2 ^ n * (2 * (q / 2) + 1) - 2 ^ n := by rw [← hq]
      _ = 2 ^ n * 2 * (q / 2) := by rw [Nat.mul_add, Nat.mul_one, Nat.add_sub_cancel, Nat.mul_assoc]
  · have hzero : q % 2 = 0 := by omega
    rw [hzero] at hq
    calc 2 ^ n * q = 2 ^ n * (2 * (q / 2)) := by rw [← Nat.add_zero (2 * _), ← hq]
      _ = 2 ^ n * 2 * (q / 2) := (Nat.mul_assoc ..).symm

theorem setBit_low (a n : Nat) :
    setBit (2 ^ n * (a / 2 ^ n) + (2 ^ n - 1)) n = 2 ^ (n + 1) * (a / 2 ^ (n + 1)) + (2 ^ (n + 1) - 1) := by
  have hpos : 0 < 2 ^ n := Nat.two_pow_pos n
  have hdiv : (2 ^ n * (a / 2 ^ n) + (2 ^ n - 1)) / 2 ^ n = a / 2 ^ n := by
    rw [Nat.mul_add_div hpos, Nat.div_eq_of_lt (Nat.sub_lt hpos Nat.one_pos), Nat.add_zero]
  rw [setBit, Nat.testBit_eq_decide_div_mod_eq, hdiv, Nat.pow_succ, ← Nat.div_div_eq_div_mul]
  generalize a / 2 ^ n = q
  have hq : q = 2 * (q / 2) + q % 2 := (Nat.div_add_mod q 2).symm
  have hmul : 2 ^ n * q = 2 ^ n * 2 * (q / 2) + 2 ^ n * (q % 2) := by
    calc 2 ^ n * q = 2 ^ n * (2 * (q / 2) + q % 2) := by rw [← hq]
      _ = 2 ^ n * 2 * (q / 2) + 2 ^ n * (q % 2) := by rw [Nat.mul_add, Nat.mul_assoc]
  split <;> rename_i hbit <;> simp only [decide_eq_true_eq] at hbit
  · rw [hmul, hbit, Nat.mul_one]
    omega
  · rw [hmul, show q % 2 = 0 by omega, Nat.mul_zero, Nat.add_zero]
    omega

/-- Clearing the bits below `n`. -/
theorem foldl_clearBit (a n : Nat) : (List.range n).foldl clearBit a = 2 ^ n * (a / 2 ^ n) := by
  induction n with
  | zero => simp
  | succ n ih => rw [List.range_succ, List.foldl_append, ih]; exact clearBit_low a n

/-- Setting the bits below `n`. -/
theorem foldl_setBit (a n : Nat) : (List.range n).foldl setBit a = 2 ^ n * (a / 2 ^ n) + (2 ^ n - 1) := by
  induction n with
  | zero => simp
  | succ n ih => rw [List.range_succ, List.foldl_append, ih]; exact setBit_low a n

end AllInSafe.Library.Blocks
