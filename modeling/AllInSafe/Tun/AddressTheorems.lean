import AllInSafe.Library.Ipv6Text
import AllInSafe.Tun.Lemmas.NetTexts

/-!
# The text of an IPv6 address as a literal
-/

namespace AllInSafe.Tun
open AllInSafe.Library

/-! ## The groups of a number -/

/-- The groups of sixteen bits of a number, without the zeros in front. -/
def groupsOf (r : Nat) : List Nat := (Nat.digits 0x10000 r).reverse

theorem groupsOf_of_ne {r : Nat} (h : r ≠ 0) : groupsOf r = groupsOf (r / 0x10000) ++ [r % 0x10000] := by
  rw [groupsOf, Nat.digits_def' (by decide) (Nat.pos_of_ne_zero h), List.reverse_cons]
  rfl

theorem groupsOf_ne_nil {r : Nat} (h : r ≠ 0) : groupsOf r ≠ [] := by
  rw [groupsOf_of_ne h]
  simp

theorem lt_of_mem_groupsOf {r g : Nat} (h : g ∈ groupsOf r) : g < 0x10000 :=
  Nat.digits_lt_base (by decide) (List.mem_reverse.mp h)

theorem value_groupsOf (r k : Nat) :
    Ipv6Text.value (groupsOf r ++ List.replicate k 0) = r * 0x10000 ^ k := by
  rw [Ipv6Text.value, groupsOf, List.reverse_append, List.reverse_reverse, List.reverse_replicate, Nat.ofDigits_append,
    Nat.ofDigits_replicate_zero, Nat.ofDigits_digits, List.length_replicate, Nat.zero_add, Nat.mul_comm]

theorem length_groupsOf_le_iff {r k : Nat} : (groupsOf r).length ≤ k ↔ r < 0x10000 ^ k := by
  rw [groupsOf, List.length_reverse]
  exact Nat.digits_length_le_iff (by decide) r

theorem length_groupsOf_mul {g : Nat} (hg : g ≠ 0) (k : Nat) :
    (groupsOf (g * 0x10000 ^ k)).length = (groupsOf g).length + k := by
  rw [Nat.mul_comm, groupsOf, groupsOf, Nat.digits_base_pow_mul (by decide) (Nat.pos_of_ne_zero hg)]
  simp [Nat.add_comm]

/-- A value of 128 bits has eight groups exactly when the first of them is not zero. -/
theorem length_groupsOf_eq_iff {v : Nat} (hv : v < 2 ^ 128) : (groupsOf v).length = 8 ↔ 2 ^ 112 ≤ v := by
  have hle : (groupsOf v).length ≤ 8 := length_groupsOf_le_iff.mpr hv
  have hlt : (groupsOf v).length ≤ 7 ↔ v < 2 ^ 112 := length_groupsOf_le_iff
  omega

/-! ## The text as joined groups -/

theorem group_hex {r : Nat} : ∀ g ∈ groupsOf r, Ipv6Text.group (hex g) = some g :=
  fun _ hg => Ipv6Text.group_toDigits (lt_of_mem_groupsOf hg)

theorem chars_hex {r : Nat} : ∀ g ∈ groupsOf r, ':' ∉ hex g ∧ '.' ∉ hex g := by
  refine fun g _ => ⟨colon_notMem_hex g, fun h => ?_⟩
  have hmem := mem_hex h
  revert hmem
  decide

theorem groupsText_eq {r : Nat} (h : r ≠ 0) :
    groupsText r = List.intercalate [':'] ((groupsOf r).map hex) ++ [':'] := by
  induction r using Nat.strongRecOn with
  | ind r ih =>
      rw [groupsText_of_ne h, groupsOf_of_ne h]
      by_cases hdiv : r / 0x10000 = 0
      · rw [hdiv, groupsText_zero]
        simp [groupsOf, List.intercalate]
      · obtain ⟨g, gs, hgs⟩ := List.exists_cons_of_ne_nil (groupsOf_ne_nil hdiv)
        rw [ih (r / 0x10000) (by omega) hdiv, hgs, List.map_append, List.map_cons, List.map_singleton,
          Str.intercalate_concat]
        simp

theorem getIPv6Address_joined {v : Nat} (h : v % 0x10000 ≠ 0) :
    getIPv6Address v = List.intercalate [':'] ((groupsOf v).map hex) := by
  have hv : v ≠ 0 := by
    rintro rfl
    exact h rfl
  rw [getIPv6Address_of_ne h, groupsOf_of_ne hv]
  by_cases hdiv : v / 0x10000 = 0
  · rw [hdiv, groupsText_zero]
    simp [groupsOf, List.intercalate]
  · obtain ⟨g, gs, hgs⟩ := List.exists_cons_of_ne_nil (groupsOf_ne_nil hdiv)
    rw [groupsText_eq hdiv, hgs, List.map_append, List.map_cons, List.map_singleton, Str.intercalate_concat]
    simp

theorem getIPv6Address_joined_zeros {v : Nat} (hv : v ≠ 0) (hzeros : v % 0x10000 = 0) :
    getIPv6Address v = List.intercalate [':'] ((groupsOf (stripped v)).map hex) ++ [':', ':'] := by
  have hstripped : stripped v ≠ 0 := by
    obtain ⟨k, -, heq⟩ := eq_stripped_mul hv hzeros
    rintro h
    rw [h, Nat.zero_mul] at heq
    exact hv heq
  rw [getIPv6Address_of_zeros hv hzeros, groupsText_eq hstripped]
  simp

/-! ## When the text denotes the address -/

/-- The text of a 128-bit value is a literal that denotes the value exactly when the value is zero or its first group
is not: zeros in front are left out without a `::`. -/
theorem getIPv6Address_denotes_iff {v : Nat} (hv : v < 2 ^ 128) :
    Ipv6Text.read (getIPv6Address v) = some v ↔ v = 0 ∨ 2 ^ 112 ≤ v := by
  by_cases hzero : v = 0
  · subst hzero
    have hread : Ipv6Text.read (getIPv6Address 0) = some 0 := by decide
    simp [hread]
  · rw [or_iff_right hzero, ← length_groupsOf_eq_iff hv]
    by_cases hzeros : v % 0x10000 = 0
    · obtain ⟨k, hk, heq⟩ := eq_stripped_mul hzero hzeros
      have hstripped : stripped v ≠ 0 := by
        rintro h
        rw [h, Nat.zero_mul] at heq
        exact hzero heq
      have hlength : (groupsOf v).length = (groupsOf (stripped v)).length + k := by
        conv_lhs => rw [heq]
        exact length_groupsOf_mul hstripped k
      have hle : (groupsOf v).length ≤ 8 := length_groupsOf_le_iff.mpr hv
      rw [getIPv6Address_joined_zeros hzero hzeros,
        Ipv6Text.read_joined_zeros group_hex chars_hex (groupsOf_ne_nil hstripped), if_pos (by omega), value_groupsOf,
        Option.some_inj, hlength]
      conv_lhs => rhs; rw [heq]
      rw [Nat.mul_right_inj hstripped, Nat.pow_right_inj (by decide)]
      omega
    · have hvalue := value_groupsOf v 0
      rw [List.replicate_zero, List.append_nil, Nat.pow_zero, Nat.mul_one] at hvalue
      rw [getIPv6Address_joined hzeros, Ipv6Text.read_joined group_hex chars_hex (groupsOf_ne_nil hzero), hvalue]
      simp

theorem getIPv6Address_denotes_documentation :
    Ipv6Text.read (getIPv6Address 0x20010db8000000000000000000000000) = some 0x20010db8000000000000000000000000 :=
  (getIPv6Address_denotes_iff (by decide)).mpr (.inr (by decide))

/-- `0:1::` is printed as `1::`, another address. -/
theorem zeros_in_front_lost : getIPv6Address (2 ^ 96) = "1::".toList ∧
    Ipv6Text.read (getIPv6Address (2 ^ 96)) = some (2 ^ 112) ∧
      Ipv6Text.read (getIPv6Address (2 ^ 96)) ≠ some (2 ^ 96) := by
  have htext : getIPv6Address (2 ^ 96) = "1::".toList := by
    rw [getIPv6Address_joined_zeros (by decide) (by decide)]
    have hpow : 1 * 0x10000 ^ 6 = 2 ^ 96 := by decide
    have hstripped : stripped (2 ^ 96) = 1 := by
      rw [← hpow, stripped_mul (by decide), stripped_of_ne (by decide)]
    rw [hstripped]
    decide
  rw [htext]
  exact ⟨rfl, by decide, by decide⟩

end AllInSafe.Tun
