import AllInSafe.Library.LongestMatch
import AllInSafe.Routes.Model

/-!
# Nets as blocks of addresses
-/

namespace AllInSafe.Routes
open AllInSafe.Library AllInSafe.Library.Blocks

/-- The address lies in the net. -/
def IpAddress.Covers (ip : IpAddress) (x : Nat) : Prop :=
  ip.getFirstAddress ≤ x ∧ x ≤ ip.getLastAddress

instance (ip : IpAddress) (x : Nat) : Decidable (ip.Covers x) :=
  inferInstanceAs (Decidable (_ ∧ _))

/-- Nets as entries: the longer prefix goes first, and the value is the include flag. -/
def nets : Entries IpAddress Nat Bool :=
  ⟨IpAddress.Covers, IpAddress.networkMask, IpAddress.included⟩

/-- A net of the family whose prefix is not longer than its address. -/
structure IpAddress.Valid (isV4 : Bool) (ip : IpAddress) : Prop where
  family : ip.isV4 = isV4
  networkMask_le : ip.networkMask ≤ ip.addressBits

namespace IpAddress

variable {v : Bool} {m n : IpAddress} {x : Nat}

/-! ## First and last address -/

theorem getFirstAddress_eq : n.getFirstAddress = 2 ^ n.numBits * (n.netAddress / 2 ^ n.numBits) :=
  foldl_clearBit n.netAddress n.numBits

theorem getLastAddress_eq : n.getLastAddress = n.getFirstAddress + (2 ^ n.numBits - 1) := by
  rw [getFirstAddress_eq]
  exact foldl_setBit n.netAddress n.numBits

theorem dvd_getFirstAddress : 2 ^ n.numBits ∣ n.getFirstAddress :=
  ⟨_, getFirstAddress_eq⟩

theorem covers_iff : n.Covers x ↔ n.getFirstAddress ≤ x ∧ x < n.getFirstAddress + 2 ^ n.numBits := by
  have hpos : 0 < 2 ^ n.numBits := Nat.two_pow_pos _
  rw [Covers, getLastAddress_eq]
  omega

theorem covers_getFirstAddress : n.Covers n.getFirstAddress :=
  ⟨Nat.le_refl _, by rw [getLastAddress_eq]; exact Nat.le_add_right _ _⟩

theorem getFirstAddress_le_getLastAddress : n.getFirstAddress ≤ n.getLastAddress :=
  covers_getFirstAddress.2

theorem Valid.numBits_le (hm : m.Valid v) (hn : n.Valid v) (h : m.networkMask ≤ n.networkMask) :
    n.numBits ≤ m.numBits := by
  have hbits : m.addressBits = n.addressBits := by rw [addressBits, addressBits, hm.family, hn.family]
  rw [numBits, numBits, hbits]
  exact Nat.sub_le_sub_left h _

/-- The longer one of two nets that share an address lies in the shorter one. -/
theorem Valid.nested (hm : m.Valid v) (hn : n.Valid v) (hmx : m.Covers x) (hnx : n.Covers x)
    (h : m.networkMask ≤ n.networkMask) :
    m.getFirstAddress ≤ n.getFirstAddress ∧ n.getLastAddress ≤ m.getLastAddress := by
  have hpos : 0 < 2 ^ n.numBits := Nat.two_pow_pos _
  have hpos' : 0 < 2 ^ m.numBits := Nat.two_pow_pos _
  obtain ⟨hfirst, hlast⟩ := Blocks.nested (dvd_getFirstAddress (n := n)) (dvd_getFirstAddress (n := m))
    (Nat.pow_dvd_pow 2 (hm.numBits_le hn h)) (covers_iff.mp hnx) (covers_iff.mp hmx)
  rw [getLastAddress_eq, getLastAddress_eq]
  omega

theorem Valid.covers_of_le (hm : m.Valid v) (hn : n.Valid v) (hmx : m.Covers x) (hnx : n.Covers x)
    (h : m.networkMask ≤ n.networkMask) {y : Nat} (hy : n.Covers y) : m.Covers y :=
  have hnested := hm.nested hn hmx hnx h
  ⟨hnested.1.trans hy.1, hy.2.trans hnested.2⟩

theorem Valid.getFirstAddress_eq_of_covers (hm : m.Valid v) (hn : n.Valid v) (hmx : m.Covers x) (hnx : n.Covers x)
    (h : m.networkMask = n.networkMask) : m.getFirstAddress = n.getFirstAddress :=
  le_antisymm (hm.nested hn hmx hnx h.le).1 (hn.nested hm hnx hmx h.ge).1

/-! ## The order and the halves -/

/-- The first addresses decide, and between equal ones the longer mask comes first. -/
theorem compareTo_eq_then :
    m.compareTo n = (compare m.getFirstAddress n.getFirstAddress).then (compare n.networkMask m.networkMask) := by
  rw [compareTo]
  cases compare m.getFirstAddress n.getFirstAddress with
  | lt => rfl
  | gt => rfl
  | eq =>
      change _ = compare n.networkMask m.networkMask
      rcases lt_trichotomy n.networkMask m.networkMask with h | h | h
      · simp [h, Nat.compare_eq_lt.mpr h]
      · simp [h]
      · simp [h.ne', Nat.le_of_lt h, Nat.compare_eq_gt.mpr h]

theorem compareTo_ne_gt_iff : m.compareTo n ≠ .gt ↔
    m.getFirstAddress < n.getFirstAddress ∨
      m.getFirstAddress = n.getFirstAddress ∧ n.networkMask ≤ m.networkMask := by
  rw [compareTo_eq_then, ne_eq, Ordering.then_eq_gt, Nat.compare_eq_gt, Nat.compare_eq_eq, Nat.compare_eq_gt]
  omega

theorem compareTo_self_ne_gt (n : IpAddress) : n.compareTo n ≠ .gt :=
  compareTo_ne_gt_iff.mpr (.inr ⟨rfl, le_rfl⟩)

theorem le_of_compareTo (h : m.compareTo n ≠ .gt) : m.getFirstAddress ≤ n.getFirstAddress := by
  rcases compareTo_ne_gt_iff.mp h with hlt | ⟨heq, -⟩
  · exact hlt.le
  · exact heq.le

theorem compareTo_gt_of_lt (h : n.getFirstAddress < m.getFirstAddress) : m.compareTo n = .gt := by
  rw [compareTo_eq_then, Nat.compare_eq_gt.mpr h, Ordering.then_eq_gt]
  exact .inl rfl

theorem equals_iff : m.equals n = true ↔
    m.networkMask = n.networkMask ∧ n.getFirstAddress = m.getFirstAddress := by
  simp [equals]

theorem equals_comm : m.equals n = n.equals m := by
  rw [Bool.eq_iff_iff, equals_iff, equals_iff]
  constructor <;> rintro ⟨hmask, hfirst⟩ <;> exact ⟨hmask.symm, hfirst.symm⟩

theorem equals_of_compareTo (h : m.compareTo n = .eq) : m.equals n = true := by
  rw [compareTo_eq_then, Ordering.then_eq_eq, Nat.compare_eq_eq, Nat.compare_eq_eq] at h
  exact equals_iff.mpr ⟨h.2.symm, h.1.symm⟩

theorem Valid.getLastAddress_eq_of_equals (hm : m.Valid v) (hn : n.Valid v)
    (hfirst : m.getFirstAddress = n.getFirstAddress) (hmask : m.networkMask = n.networkMask) :
    m.getLastAddress = n.getLastAddress := by
  rw [getLastAddress_eq, getLastAddress_eq, hfirst, le_antisymm (hn.numBits_le hm hmask.ge) (hm.numBits_le hn hmask.le)]

theorem Valid.covers_of_equals (hm : m.Valid v) (hn : n.Valid v) (hmask : m.networkMask = n.networkMask)
    (hfirst : m.getFirstAddress = n.getFirstAddress) (hx : m.Covers x) : n.Covers x :=
  ⟨hfirst ▸ hx.1, hm.getLastAddress_eq_of_equals hn hfirst hmask ▸ hx.2⟩

theorem Valid.networkMask_eq (hm : m.Valid v) (hn : n.Valid v) (hfirst : m.getFirstAddress = n.getFirstAddress)
    (hlast : m.getLastAddress = n.getLastAddress) : m.networkMask = n.networkMask := by
  have hpos : 0 < 2 ^ m.numBits := Nat.two_pow_pos _
  have hpos' : 0 < 2 ^ n.numBits := Nat.two_pow_pos _
  rw [getLastAddress_eq, getLastAddress_eq, hfirst] at hlast
  have hbits : m.numBits = n.numBits := Nat.pow_right_injective (le_refl 2) (by change 2 ^ _ = 2 ^ _; omega)
  have haddress : m.addressBits = n.addressBits := by rw [addressBits, addressBits, hm.family, hn.family]
  have hle := hm.networkMask_le
  have hle' := hn.networkMask_le
  rw [numBits, numBits] at hbits
  omega

/-! A net whose prefix is shorter than its address can be split. -/

theorem numBits_firstHalf (h : n.networkMask < n.addressBits) : n.numBits = n.firstHalf.numBits + 1 := by
  have heq : n.firstHalf.numBits = n.addressBits - (n.networkMask + 1) := rfl
  rw [heq, numBits]
  omega

theorem dvd_firstHalf (h : n.networkMask < n.addressBits) : 2 ^ n.firstHalf.numBits ∣ n.getFirstAddress :=
  Nat.dvd_trans (Nat.pow_dvd_pow 2 (by rw [numBits_firstHalf h]; exact Nat.le_succ _)) dvd_getFirstAddress

theorem getFirstAddress_firstHalf (h : n.networkMask < n.addressBits) :
    n.firstHalf.getFirstAddress = n.getFirstAddress := by
  rw [getFirstAddress_eq]
  exact Nat.mul_div_cancel' (dvd_firstHalf h)

theorem getFirstAddress_secondHalf (h : n.networkMask < n.addressBits) :
    n.secondHalf.getFirstAddress = n.getFirstAddress + 2 ^ n.firstHalf.numBits := by
  have hpos : 0 < 2 ^ n.firstHalf.numBits := Nat.two_pow_pos _
  have hnet : n.secondHalf.netAddress = n.getFirstAddress + 2 ^ n.firstHalf.numBits := by
    have hlast := getLastAddress_eq (n := n.firstHalf)
    rw [getFirstAddress_firstHalf h] at hlast
    change n.firstHalf.getLastAddress + 1 = _
    omega
  rw [getFirstAddress_eq, hnet]
  exact Nat.mul_div_cancel' (Nat.dvd_add (dvd_firstHalf h) (Nat.dvd_refl _))

theorem getLastAddress_firstHalf (h : n.networkMask < n.addressBits) :
    n.firstHalf.getLastAddress + 1 = n.secondHalf.getFirstAddress := by
  have hpos : 0 < 2 ^ n.firstHalf.numBits := Nat.two_pow_pos _
  rw [getLastAddress_eq, getFirstAddress_firstHalf h, getFirstAddress_secondHalf h]
  omega

theorem getLastAddress_secondHalf (h : n.networkMask < n.addressBits) :
    n.secondHalf.getLastAddress = n.getLastAddress := by
  have hpos : 0 < 2 ^ n.firstHalf.numBits := Nat.two_pow_pos _
  rw [getLastAddress_eq, getLastAddress_eq, getFirstAddress_secondHalf h, numBits_firstHalf h, Nat.pow_succ,
    show n.secondHalf.numBits = n.firstHalf.numBits from rfl]
  omega

theorem covers_halves (h : n.networkMask < n.addressBits) :
    n.Covers x ↔ n.firstHalf.Covers x ∨ n.secondHalf.Covers x := by
  have hfirst := getFirstAddress_firstHalf h
  have hmiddle := getLastAddress_firstHalf h
  have hlast := getLastAddress_secondHalf h
  have hle := getFirstAddress_le_getLastAddress (n := n.firstHalf)
  have hle' := getFirstAddress_le_getLastAddress (n := n.secondHalf)
  simp only [Covers]
  omega

theorem Valid.firstHalf (hn : n.Valid v) (h : n.networkMask < n.addressBits) : n.firstHalf.Valid v :=
  ⟨hn.family, h⟩

theorem Valid.secondHalf (hn : n.Valid v) (h : n.networkMask < n.addressBits) : n.secondHalf.Valid v :=
  ⟨hn.family, h⟩

end IpAddress

end AllInSafe.Routes
