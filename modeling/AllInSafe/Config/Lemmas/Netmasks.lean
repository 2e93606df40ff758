import AllInSafe.Config.Numbers
import AllInSafe.Library.Outcome

/-!
# The length of a netmask

The loop of `calculateLenFromMask` divides by the power of two that is in the number.
-/

namespace AllInSafe.Config
open AllInSafe.Library

/-! ## The loop -/

theorem CIDRIP.countZeros_mul {o : Int} (ho : o % 2 ≠ 0) {fuel k : Nat} (hk : k < fuel) (lenZeros : Nat) :
    countZeros fuel (o * 2 ^ k) lenZeros = some (o, lenZeros + k) := by
  induction k generalizing fuel lenZeros with
  | zero =>
      obtain ⟨fuel, rfl⟩ := Nat.exists_eq_succ_of_ne_zero (Nat.ne_of_gt hk)
      simp [countZeros, ho]
  | succ k ih =>
      obtain ⟨fuel, rfl⟩ := Nat.exists_eq_succ_of_ne_zero (Nat.ne_of_gt (Nat.zero_lt_of_lt hk))
      have hpow : o * 2 ^ (k + 1) = o * 2 ^ k * 2 := by rw [Int.pow_succ, Int.mul_assoc]
      have heven : o * 2 ^ k * 2 % 2 = 0 := Int.mul_emod_left _ 2
      have hdiv : o * 2 ^ k * 2 / 2 = o * 2 ^ k := Int.mul_ediv_cancel _ (by decide)
      rw [hpow, countZeros, if_pos heven, hdiv, ih (by omega)]
      simp [Nat.add_comm, Nat.add_left_comm]

theorem CIDRIP.countZeros_zero (fuel lenZeros : Nat) : countZeros fuel 0 lenZeros = none := by
  induction fuel generalizing lenZeros with
  | zero => rfl
  | succ fuel ih => simp [countZeros, ih]

theorem exists_odd_mul {m : Int} (h : m ≠ 0) : ∃ (o : Int) (k : Nat), o % 2 ≠ 0 ∧ m = o * 2 ^ k := by
  have hfinite : FiniteMultiplicity 2 m := Int.finiteMultiplicity_iff.mpr ⟨by decide, h⟩
  obtain ⟨o, hm, ho⟩ := hfinite.exists_eq_pow_mul_and_not_dvd
  exact ⟨o, multiplicity 2 m, fun hmod => ho (Int.dvd_of_emod_eq_zero hmod), hm.trans (Int.mul_comm _ _)⟩

/-- A power of two in a number other than zero is not above it. -/
theorem lt_of_odd_mul {o : Int} (ho : o % 2 ≠ 0) {k : Nat} (h : -2 ^ 63 ≤ o * 2 ^ k ∧ o * 2 ^ k < 2 ^ 63) :
    k < 64 := by
  by_contra hk
  obtain ⟨j, rfl⟩ := Nat.exists_eq_add_of_le (not_lt.mp hk)
  have hpow : o * 2 ^ (64 + j) = o * 2 ^ j * 2 ^ 64 := by rw [Int.pow_add]; ring
  have hzero : o * 2 ^ j = 0 := by omega
  rcases Int.mul_eq_zero.mp hzero with rfl | hj
  · exact ho rfl
  · exact absurd hj (by positivity)

/-! ## The value of a netmask -/

theorem wrap_range {bits : Nat} (hbits : 0 < bits) (n : Int) :
    -2 ^ (bits - 1) ≤ wrap bits n ∧ wrap bits n < 2 ^ (bits - 1) := by
  obtain ⟨b, rfl⟩ := Nat.exists_eq_succ_of_ne_zero (Nat.ne_of_gt hbits)
  have hpos : 0 < 2 ^ (b + 1) := Nat.two_pow_pos _
  have hlow := @Int.le_bmod n (2 ^ (b + 1)) hpos
  have hhigh := @Int.bmod_lt n (2 ^ (b + 1)) hpos
  rw [Nat.pow_succ] at hlow hhigh
  rw [wrap, Nat.succ_eq_add_one, Nat.add_sub_cancel, Nat.pow_succ]
  push_cast at hlow hhigh ⊢
  omega

theorem exists_wrap_eq (bits : Nat) (n : Int) : ∃ q, wrap bits n = n - 2 ^ bits * q := by
  refine ⟨n.bdiv (2 ^ bits), ?_⟩
  rw [wrap, Int.bmod_eq_self_sub_mul_bdiv, Int.natCast_pow]
  rfl

theorem CIDRIP.getInt_range {mask : Str} {s : Int} (h : getInt mask = .ok s) : -2 ^ 63 ≤ s ∧ s < 2 ^ 63 := by
  rw [getInt] at h
  obtain ⟨a, -, h⟩ := bind_eq_ok.mp h
  obtain ⟨x, -, h⟩ := bind_eq_ok.mp h
  obtain ⟨b, -, h⟩ := bind_eq_ok.mp h
  obtain ⟨y, -, h⟩ := bind_eq_ok.mp h
  obtain ⟨c, -, h⟩ := bind_eq_ok.mp h
  obtain ⟨z, -, h⟩ := bind_eq_ok.mp h
  obtain ⟨d, -, h⟩ := bind_eq_ok.mp h
  obtain ⟨w, -, h⟩ := bind_eq_ok.mp h
  cases h
  exact wrap_range (by decide) _

/-- The 33 ones without the last `k` of them, and what the loop has divided by. -/
theorem ones_ediv {k : Nat} (hk : k ≤ 32) : (0x1ffffffff : Int) / 2 ^ k = 2 ^ (33 - k) - 1 ∧
    (2 ^ (33 - k) - 1) * 2 ^ k = (2 : Int) ^ 33 - 2 ^ k ∧ (0 : Int) < 2 ^ k ∧ (2 : Int) ^ k ≤ 2 ^ 32 := by
  have hpow : (2 : Int) ^ 33 = 2 ^ (33 - k) * 2 ^ k := by rw [← Int.pow_add, Nat.sub_add_cancel (by omega)]
  have hle : (2 : Int) ^ k ≤ 2 ^ 32 := by exact_mod_cast Nat.pow_le_pow_right Nat.two_pos hk
  have hpos : (0 : Int) < 2 ^ k := by positivity
  have hsum : (0x1ffffffff : Int) = 2 ^ k - 1 + (2 ^ (33 - k) - 1) * 2 ^ k := by
    rw [Int.sub_mul, ← hpow]
    omega
  refine ⟨?_, by rw [Int.sub_mul, ← hpow, Int.one_mul], hpos, hle⟩
  rw [hsum, Int.add_mul_ediv_right _ _ hpos.ne', Int.ediv_eq_zero_of_lt (by omega) (by omega), Int.zero_add]

namespace CIDRIP

variable {mask : Str} {s : Int}

/-- The sum with the 33rd bit, as the loop finds it. -/
theorem calculateLenFromMask_of_odd (h : getInt mask = .ok s) {o : Int} {k : Nat} (ho : o % 2 ≠ 0)
    (hwrap : wrap 64 (s + 2 ^ 32) = o * 2 ^ k) :
    calculateLenFromMask mask = .ok (if o ≠ 0x1ffffffff / 2 ^ k then 32 else 32 - k) := by
  have hrange := @wrap_range 64 (by decide) (s + 2 ^ 32)
  rw [hwrap] at hrange
  have hzeros := countZeros_mul ho (lt_of_odd_mul ho hrange) 0
  rw [Nat.zero_add] at hzeros
  simp only [calculateLenFromMask, h, hwrap, hzeros, bind, Except.bind, pure, Except.pure]

/-- The 33rd bit is cancelled, and the loop shifts a zero for ever. -/
theorem calculateLenFromMask_endless (h : getInt mask = .ok (-2 ^ 32)) :
    calculateLenFromMask mask = .error .endless := by
  have hwrap : wrap 64 (-2 ^ 32 + 2 ^ 32) = 0 := by decide
  simp only [calculateLenFromMask, h, hwrap, countZeros_zero, bind, Except.bind]
  rfl

theorem calculateLenFromMask_prefix {k : Nat} (hk : k ≤ 32) (h : getInt mask = .ok (2 ^ 32 - 2 ^ k)) :
    calculateLenFromMask mask = .ok (32 - k) := by
  obtain ⟨hdiv, hmul, hpos, hle⟩ := ones_ediv hk
  have hodd : ((2 : Int) ^ (33 - k) - 1) % 2 ≠ 0 := by
    have hsucc : 33 - k = 32 - k + 1 := by omega
    rw [hsucc, Int.pow_succ]
    omega
  have hwrap : wrap 64 (2 ^ 32 - 2 ^ k + 2 ^ 32) = (2 ^ (33 - k) - 1) * 2 ^ k := by
    rw [hmul, wrap, Int.bmod_eq_of_le] <;> omega
  rw [calculateLenFromMask_of_odd h hodd hwrap, hdiv]
  simp

theorem calculateLenFromMask_other (h : getInt mask = .ok s) (hendless : s ≠ -2 ^ 32)
    (hother : ∀ k ≤ 32, s ≠ 2 ^ 32 - 2 ^ k) : calculateLenFromMask mask = .ok 32 := by
  obtain ⟨hlow, hhigh⟩ := getInt_range h
  obtain ⟨q, hq⟩ := exists_wrap_eq 64 (s + 2 ^ 32)
  obtain ⟨hwlow, hwhigh⟩ := @wrap_range 64 (by decide) (s + 2 ^ 32)
  obtain ⟨o, k, ho, hwrap⟩ := exists_odd_mul (m := wrap 64 (s + 2 ^ 32)) (by omega)
  have hne : o ≠ 0x1ffffffff / 2 ^ k := by
    intro heq
    by_cases hk : k ≤ 32
    · obtain ⟨hdiv, hmul, hpos, hle⟩ := ones_ediv hk
      rw [heq, hdiv, hmul] at hwrap
      exact hother k hk (by omega)
    · have hlt : (0x1ffffffff : Int) < 2 ^ k := by
        have : (2 : Int) ^ 33 ≤ 2 ^ k := by exact_mod_cast Nat.pow_le_pow_right Nat.two_pos (by omega)
        omega
      rw [Int.ediv_eq_zero_of_lt (by decide) hlt] at heq
      exact ho (by rw [heq]; rfl)
  rw [calculateLenFromMask_of_odd h ho hwrap, if_pos hne]

/-- Any other sum gives a length. -/
theorem calculateLenFromMask_ne_error (h : getInt mask = .ok s) (hendless : s ≠ -2 ^ 32) :
    ∃ len, calculateLenFromMask mask = .ok len := by
  by_cases hones : ∃ k ≤ 32, s = 2 ^ 32 - 2 ^ k
  · obtain ⟨k, hk, rfl⟩ := hones
    exact ⟨32 - k, calculateLenFromMask_prefix hk h⟩
  · refine ⟨32, calculateLenFromMask_other h hendless fun k hk heq => ?_⟩
    exact hones ⟨k, hk, heq⟩

theorem calculateLenFromMask_le {len : Nat} (h : calculateLenFromMask mask = .ok len) : len ≤ 32 := by
  rw [calculateLenFromMask] at h
  obtain ⟨n, -, h⟩ := bind_eq_ok.mp h
  dsimp only at h
  split at h
  · cases h
  · cases h
    split
    · exact le_rfl
    · exact Nat.sub_le _ _

theorem ofNetmask_le {ip : Str} {cidr : CIDRIP} (h : ofNetmask ip mask = .ok cidr) : cidr.len ≤ 32 := by
  obtain ⟨len, hlen, h⟩ := bind_eq_ok.mp h
  cases h
  exact calculateLenFromMask_le hlen

end CIDRIP

end AllInSafe.Config
