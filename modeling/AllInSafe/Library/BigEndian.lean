import Mathlib

/-!
# Numbers as bytes, the most significant one first
-/

namespace AllInSafe.Library.BigEndian

/-- The last `n` bytes of `v`. -/
def bytes : Nat → Nat → List UInt8
  | 0, _ => []
  | n + 1, v => UInt8.ofNat (v / 256 ^ n) :: bytes n v

def value : List UInt8 → Nat
  | [] => 0
  | b :: bs => b.toNat * 256 ^ bs.length + value bs

@[simp] theorem length_bytes (n v : Nat) : (bytes n v).length = n := by
  induction n with
  | zero => rfl
  | succ n ih => simp [bytes, ih]

theorem value_bytes (n v : Nat) : value (bytes n v) = v % 256 ^ n := by
  induction n with
  | zero => simp [bytes, value, Nat.mod_one]
  | succ n ih =>
      have hbyte : (UInt8.ofNat (v / 256 ^ n)).toNat = v / 256 ^ n % 256 := UInt8.toNat_ofNat'
      rw [bytes, value, length_bytes, ih, hbyte, Nat.mod_pow_succ, Nat.mul_comm, Nat.add_comm]

theorem value_bytes_of_lt {n v : Nat} (h : v < 256 ^ n) : value (bytes n v) = v := by
  rw [value_bytes, Nat.mod_eq_of_lt h]

theorem value_lt (bs : List UInt8) : value bs < 256 ^ bs.length := by
  induction bs with
  | nil => exact Nat.one_pos
  | cons b bs ih =>
      have hb : b.toNat + 1 ≤ 256 := b.toNat_lt
      have hmul := Nat.mul_le_mul_right (256 ^ bs.length) hb
      rw [value, List.length_cons, Nat.pow_succ]
      rw [Nat.succ_mul] at hmul
      omega

theorem value_concat (bs : List UInt8) (b : UInt8) : value (bs ++ [b]) = value bs * 256 + b.toNat := by
  induction bs with
  | nil => simp [value]
  | cons c bs ih =>
      rw [List.cons_append, value, value, ih, List.length_append, List.length_singleton, Nat.pow_succ]
      ring

theorem bytes_value (bs : List UInt8) : bytes bs.length (value bs) = bs := by
  have hmod : ∀ n v w : Nat, bytes n (v * 256 ^ n + w) = bytes n w := by
    intro n
    induction n with
    | zero => exact fun _ _ => rfl
    | succ n ih =>
        intro v w
        have hsplit : v * 256 ^ (n + 1) + w = v * 256 * 256 ^ n + w := by rw [Nat.pow_succ', Nat.mul_assoc]
        rw [bytes, bytes, hsplit, ih]
        refine congrArg₂ _ (UInt8.toNat_inj.mp ?_) rfl
        rw [UInt8.toNat_ofNat', UInt8.toNat_ofNat', Nat.add_comm, Nat.add_mul_div_right _ _ (by positivity)]
        omega
  induction bs with
  | nil => rfl
  | cons b bs ih =>
      have hdiv : (b.toNat * 256 ^ bs.length + value bs) / 256 ^ bs.length = b.toNat := by
        rw [Nat.add_comm, Nat.add_mul_div_right _ _ (by positivity), Nat.div_eq_of_lt (value_lt bs), Nat.zero_add]
      rw [List.length_cons, bytes, value, hmod, ih, hdiv, UInt8.ofNat_toNat]

end AllInSafe.Library.BigEndian
