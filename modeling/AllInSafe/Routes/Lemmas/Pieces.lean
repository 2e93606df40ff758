import AllInSafe.Routes.Lemmas.Steps
import AllInSafe.Routes.Slips

/-!
# Blocks, and the smallest nets around them

Taking away a net that another one of its type stands for changes no smallest net, and splitting a net changes it for
the block of that net only.
-/

namespace AllInSafe.Routes
open AllInSafe.Library

namespace IpAddress

variable {v : Bool} {b c m n : IpAddress} {x k : Nat}

/-! ## Blocks that hold blocks -/

theorem covers_netAddress : n.Covers n.netAddress := by
  rw [covers_iff, getFirstAddress_eq]
  exact ⟨Nat.mul_div_le _ _, Nat.lt_mul_div_succ _ (Nat.two_pow_pos _)⟩

theorem Valid.covers_of_holds (hn : n.Valid v) (hb : b.Valid v) (h : holders.Covers n b) (hx : b.Covers x) :
    n.Covers x :=
  hn.covers_of_le hb h.1 covers_getFirstAddress h.2 hx

theorem Valid.holds (hn : n.Valid v) (hb : b.Valid v) (hnx : n.Covers x) (hbx : b.Covers x)
    (h : n.networkMask ≤ b.networkMask) : holders.Covers n b :=
  ⟨hn.covers_of_le hb hnx hbx h covers_getFirstAddress, h⟩

theorem Valid.holds_trans (hm : m.Valid v) (hn : n.Valid v) (hmn : holders.Covers m n) (hnb : holders.Covers n b) :
    holders.Covers m b :=
  ⟨hm.covers_of_holds hn hmn hnb.1, hmn.2.trans hnb.2⟩

theorem Valid.holds_of_equals (hfirst : n.getFirstAddress = b.getFirstAddress)
    (hmask : n.networkMask ≤ b.networkMask) : holders.Covers n b :=
  ⟨hfirst ▸ covers_getFirstAddress, hmask⟩

/-- A block that is held lies in one of the halves, unless it is the whole. -/
theorem Valid.half_holds (hb : b.Valid v) (hc : c.Valid v) (h : holders.Covers c b)
    (hlt : c.networkMask < b.networkMask) : c.networkMask < c.addressBits ∧
      (holders.Covers c.firstHalf b ∨ holders.Covers c.secondHalf b) := by
  have hbits : c.networkMask < c.addressBits := by
    have hle := hb.networkMask_le
    rw [addressBits, hb.family] at hle
    rw [addressBits, hc.family]
    omega
  exact ⟨hbits, ((covers_halves hbits).mp h.1).imp (fun hx => ⟨hx, hlt⟩) fun hx => ⟨hx, hlt⟩⟩

/-! ## Blocks around an address -/

@[simp] theorem around_networkMask : (n.around k).networkMask = k := rfl

theorem Valid.around (hn : n.Valid v) (hk : k ≤ n.networkMask) : (n.around k).Valid v :=
  ⟨hn.family, hk.trans hn.networkMask_le⟩

theorem Valid.around_holds (hn : n.Valid v) (hk : k ≤ n.networkMask) : holders.Covers (n.around k) n :=
  (hn.around hk).holds hn (covers_netAddress (n := n.around k)) covers_netAddress hk

theorem Valid.around_first_le (hn : n.Valid v) (hk : k ≤ n.networkMask) :
    (n.around k).getFirstAddress ≤ n.getFirstAddress :=
  (hn.around_holds hk).1.1

/-! ## Second halves -/

/-- No net that starts where a second half starts is larger. -/
theorem IsSecondHalf.le (h : b.IsSecondHalf) (hb : b.Valid v) (hn : n.Valid v)
    (hfirst : n.getFirstAddress = b.getFirstAddress) : b.networkMask ≤ n.networkMask := by
  by_contra hlt
  have hle : b.networkMask - 1 ≤ b.networkMask := Nat.sub_le _ _
  have hholds := hn.holds (hb.around hle) (hfirst ▸ covers_getFirstAddress) (hb.around_holds hle).1
    (show n.networkMask ≤ b.networkMask - 1 by omega)
  have hlow : n.getFirstAddress ≤ (b.around (b.networkMask - 1)).getFirstAddress := hholds.1.1
  have h' : (b.around (b.networkMask - 1)).getFirstAddress < b.getFirstAddress := h
  omega

theorem Valid.isSecondHalf (hn : n.Valid v) (hbits : n.networkMask < n.addressBits) : n.secondHalf.IsSecondHalf := by
  have hsecond := hn.secondHalf hbits
  have hle : n.networkMask ≤ n.secondHalf.networkMask := Nat.le_succ _
  have hcovers : n.Covers n.secondHalf.getFirstAddress := (covers_halves hbits).mpr (.inr covers_getFirstAddress)
  have hparent : (n.secondHalf.around n.networkMask).getFirstAddress = n.getFirstAddress :=
    (hsecond.around hle).getFirstAddress_eq_of_covers hn (hsecond.around_holds hle).1 hcovers rfl
  have hlt : n.getFirstAddress < n.secondHalf.getFirstAddress := by
    have hpos : 0 < 2 ^ n.firstHalf.numBits := Nat.two_pow_pos _
    rw [getFirstAddress_secondHalf hbits]
    omega
  change (n.secondHalf.around (n.networkMask + 1 - 1)).getFirstAddress < _
  rwa [Nat.add_sub_cancel, hparent]

theorem Valid.secondHalf_eq (hb : b.Valid v) (hc : c.Valid v) (hbits : b.networkMask < b.addressBits)
    (hmask : b.networkMask = c.networkMask) (hfirst : b.getFirstAddress = c.getFirstAddress) :
    b.secondHalf.getFirstAddress = c.secondHalf.getFirstAddress := by
  have haddress : b.addressBits = c.addressBits := by rw [addressBits, addressBits, hb.family, hc.family]
  have hbits' : c.networkMask < c.addressBits := by omega
  have hnumBits : b.firstHalf.numBits = c.firstHalf.numBits :=
    le_antisymm ((hc.firstHalf hbits').numBits_le (hb.firstHalf hbits) (Nat.succ_le_succ hmask.ge))
      ((hb.firstHalf hbits).numBits_le (hc.firstHalf hbits') (Nat.succ_le_succ hmask.le))
  rw [getFirstAddress_secondHalf hbits, getFirstAddress_secondHalf hbits', hfirst, hnumBits]

/-- A second half is that of the block around it. -/
theorem IsSecondHalf.secondHalf_around (h : b.IsSecondHalf) (hb : b.Valid v) : 0 < b.networkMask ∧
    (b.around (b.networkMask - 1)).secondHalf.getFirstAddress = b.getFirstAddress := by
  have hle : b.networkMask - 1 ≤ b.networkMask := Nat.sub_le _ _
  have hparent : (b.around (b.networkMask - 1)).getFirstAddress < b.getFirstAddress := h
  have hpos : 0 < b.networkMask := by
    refine Nat.pos_of_ne_zero fun hzero => ?_
    have hsame : b.networkMask - 1 = b.networkMask := by omega
    rw [hsame] at hparent
    exact lt_irrefl _ hparent
  have hlt : (b.around (b.networkMask - 1)).networkMask < b.networkMask := by
    change b.networkMask - 1 < b.networkMask
    omega
  obtain ⟨hbits, hhalf⟩ := hb.half_holds (hb.around hle) (hb.around_holds hle) hlt
  have hmask : b.networkMask - 1 + 1 = b.networkMask := by omega
  refine ⟨hpos, ?_⟩
  rcases hhalf with hfirst | hsecond
  · have heq := ((hb.around hle).firstHalf hbits).getFirstAddress_eq_of_covers hb hfirst.1 covers_getFirstAddress hmask
    rw [getFirstAddress_firstHalf hbits] at heq
    omega
  · exact ((hb.around hle).secondHalf hbits).getFirstAddress_eq_of_covers hb hsecond.1 covers_getFirstAddress hmask

/-- Around the first address of a net within a net that starts before it there is a second half. -/
theorem Valid.exists_isSecondHalf (hc : c.Valid v) (hn : n.Valid v) (h : holders.Covers c n)
    (hlt : c.getFirstAddress < n.getFirstAddress) :
    ∃ k ≤ n.networkMask, (n.around k).getFirstAddress = n.getFirstAddress ∧ (n.around k).IsSecondHalf ∧
      c.networkMask < k := by
  classical
  -- The largest block that starts there.
  have hex : ∃ k, (n.around k).getFirstAddress = n.getFirstAddress := ⟨n.networkMask, rfl⟩
  have hle : Nat.find hex ≤ n.networkMask := Nat.find_min' hex rfl
  have hfirst := Nat.find_spec hex
  have hvalid := hn.around hle
  have hmask : c.networkMask < Nat.find hex := by
    by_contra hge
    have hholds := hvalid.holds hc (hn.around_holds hle).1 h.1 (not_lt.mp hge)
    have hlow : (n.around (Nat.find hex)).getFirstAddress ≤ c.getFirstAddress := hholds.1.1
    omega
  refine ⟨Nat.find hex, hle, hfirst, ?_, hmask⟩
  have hpred : Nat.find hex - 1 ≤ n.networkMask := (Nat.sub_le _ _).trans hle
  change (n.around (Nat.find hex - 1)).getFirstAddress < (n.around (Nat.find hex)).getFirstAddress
  rw [hfirst]
  refine lt_of_le_of_ne (hn.around_first_le hpred) fun heq => ?_
  have := Nat.find_min' hex heq
  omega

end IpAddress

/-! ## The smallest net around a block -/

section

variable {v t : Bool} {l l' : List IpAddress} {b c n : IpAddress} {x : Nat}

theorem Consistent.holders (h : nets.Consistent l) : holders.Consistent l :=
  fun m hm n hn _ hmb hnb hmask => h m hm n hn _ hmb.1 hnb.1 hmask

/-- An address as a block of its own. -/
def IpAddress.single (v : Bool) (x : Nat) : IpAddress :=
  ⟨x, if v then 32 else 128, true, v⟩

theorem IpAddress.single_networkMask : (single v x).networkMask = (single v x).addressBits := rfl

theorem IpAddress.single_valid : (single v x).Valid v :=
  ⟨rfl, single_networkMask.le⟩

@[simp] theorem IpAddress.single_getFirstAddress : (single v x).getFirstAddress = x := by
  have hzero : (single v x).numBits = 0 := by rw [numBits, single_networkMask, Nat.sub_self]
  rw [getFirstAddress_eq, hzero]
  exact (Nat.one_mul _).trans (Nat.div_one x)

theorem resolves_iff_holders (hvalid : ∀ n ∈ l, n.Valid v) :
    nets.Resolves l x t ↔ holders.Resolves l (.single v x) t := by
  have hcovers : ∀ n ∈ l, nets.Covers n x ↔ holders.Covers n (.single v x) := by
    intro n hn
    have hle := (hvalid n hn).networkMask_le
    rw [IpAddress.addressBits, (hvalid n hn).family] at hle
    simp only [nets, holders, IpAddress.single_getFirstAddress]
    exact (and_iff_left hle).symm
  constructor
  · rintro ⟨n, hn, hvalue⟩
    exact ⟨n, ⟨hn.mem, (hcovers n hn.mem).mp hn.covers,
      fun m hm hmb => hn.longest m hm ((hcovers m hm).mpr hmb)⟩, hvalue⟩
  · rintro ⟨n, hn, hvalue⟩
    exact ⟨n, ⟨hn.mem, (hcovers n hn.mem).mpr hn.covers,
      fun m hm hmx => hn.longest m hm ((hcovers m hm).mp hmx)⟩, hvalue⟩

/-! ## A net that is taken away -/

/-- The nets without one of them, around which the smallest one has the same type. -/
structure Removes (l l' : List IpAddress) (n : IpAddress) : Prop where
  mem : n ∈ l
  sub : ∀ m ∈ l', m ∈ l
  rest : ∀ m ∈ l, m ∈ l' ∨ m = n
  heir : holders.Resolves l' n n.included

namespace Removes

theorem holders_iff (h : Removes l l' n) (hvalid : ∀ m ∈ l, m.Valid v) (hconsistent : nets.Consistent l) :
    holders.Resolves l' b t ↔ holders.Resolves l b t := by
  have hn := hvalid n h.mem
  have hconsistent' : nets.Consistent l' := fun m hm k hk => hconsistent m (h.sub m hm) k (h.sub k hk)
  refine Entries.resolves_iff_of_forward (Consistent.holders hconsistent') (fun m hm => ?_)
    fun m hm hmb => ⟨m, h.sub m hm, hmb⟩
  rcases h.rest m hm.mem with hmem | rfl
  · exact ⟨m, hm.mono hmem fun k hk _ => h.sub k hk, rfl⟩
  · -- The smallest net around the one that is removed is the next one around what that was the smallest for.
    obtain ⟨k, hk, hvalue⟩ := h.heir
    have hkvalid := hvalid k (h.sub k hk.mem)
    refine ⟨k, ⟨hk.mem, hkvalid.holds_trans hn hk.covers hm.covers, fun j hj hjb => hk.longest j hj ?_⟩, hvalue⟩
    exact (hvalid j (h.sub j hj)).holds hn hjb.1 hm.covers.1 (hm.longest j (h.sub j hj) hjb)

theorem resolves_iff (h : Removes l l' n) (hvalid : ∀ m ∈ l, m.Valid v) (hconsistent : nets.Consistent l) :
    nets.Resolves l' x t ↔ nets.Resolves l x t := by
  rw [resolves_iff_holders hvalid, resolves_iff_holders fun m hm => hvalid m (h.sub m hm)]
  exact h.holders_iff hvalid hconsistent

end Removes

/-! ## A net that is split -/

namespace Halves

theorem valid (h : Halves l l' c) (hvalid : ∀ m ∈ l, m.Valid v) : ∀ m ∈ l', m.Valid v := by
  intro m hm
  rcases h.new m hm with hm | rfl | rfl
  · exact hvalid m hm
  · exact (hvalid c h.mem).firstHalf h.bits
  · exact (hvalid c h.mem).secondHalf h.bits

/-- Only for the block of the net itself another net is the smallest one now. -/
theorem holders_iff (h : Halves l l' c) (hvalid : ∀ m ∈ l, m.Valid v) (hconsistent : nets.Consistent l)
    (hconsistent' : nets.Consistent l') (hb : b.Valid v)
    (hne : b.networkMask = c.networkMask → b.getFirstAddress ≠ c.getFirstAddress) :
    holders.Resolves l' b t ↔ holders.Resolves l b t := by
  have hc := hvalid c h.mem
  have hhalf : ∀ k, k = c.firstHalf ∨ k = c.secondHalf →
      k.Valid v ∧ k.networkMask = c.networkMask + 1 ∧ k.included = c.included ∧ holders.Covers c k := by
    rintro k (rfl | rfl)
    · exact ⟨hc.firstHalf h.bits, rfl, rfl,
        (IpAddress.covers_halves h.bits).mpr (.inl IpAddress.covers_getFirstAddress), Nat.le_succ _⟩
    · exact ⟨hc.secondHalf h.bits, rfl, rfl,
        (IpAddress.covers_halves h.bits).mpr (.inr IpAddress.covers_getFirstAddress), Nat.le_succ _⟩
  refine Entries.resolves_iff_of_forward (Consistent.holders hconsistent') (fun n hn => ?_) fun n hn hnb => ?_
  · by_cases hcb : holders.Covers c b ∧ n.networkMask ≤ c.networkMask
    · -- The net that is split is the smallest one: now its half is.
      have hvalue : c.included = n.included :=
        Entries.Best.value_eq (Consistent.holders hconsistent) hn h.mem hcb.1 hcb.2
      have hlt : c.networkMask < b.networkMask := by
        refine lt_of_le_of_ne hcb.1.2 fun heq => hne heq.symm ?_
        exact hb.getFirstAddress_eq_of_covers hc IpAddress.covers_getFirstAddress hcb.1.1 heq.symm
      obtain ⟨k, hk, hkb⟩ : ∃ k, (k = c.firstHalf ∨ k = c.secondHalf) ∧ holders.Covers k b := by
        rcases (hb.half_holds hc hcb.1 hlt).2 with hkb | hkb
        · exact ⟨_, .inl rfl, hkb⟩
        · exact ⟨_, .inr rfl, hkb⟩
      obtain ⟨hkvalid, hkmask, hkincluded, -⟩ := hhalf k hk
      have hmem : k ∈ l' := by
        refine (h.half k hk).resolve_right fun ⟨m, hm, hmask, hfirst⟩ => ?_
        have hmb := (hvalid m hm).holds_trans hkvalid (IpAddress.Valid.holds_of_equals hfirst hmask.le) hkb
        have hle : m.networkMask ≤ n.networkMask := hn.longest m hm hmb
        omega
      refine ⟨k, ⟨hmem, hkb, fun m hm hmb => ?_⟩, hkincluded.trans hvalue⟩
      rcases h.new m hm with hm | hm
      · have hle : m.networkMask ≤ n.networkMask := hn.longest m hm hmb
        change m.networkMask ≤ k.networkMask
        omega
      · exact ((hhalf m hm).2.1.trans hkmask.symm).le
    · -- Another net is smaller, and so not larger than the halves.
      have hmem : n ∈ l' := (h.old n hn.mem).resolve_right fun heq => hcb (heq ▸ ⟨hn.covers, le_rfl⟩)
      refine ⟨n, ⟨hmem, hn.covers, fun m hm hmb => ?_⟩, rfl⟩
      rcases h.new m hm with hm | hm
      · exact hn.longest m hm hmb
      · obtain ⟨hmvalid, hmmask, -, hcm⟩ := hhalf m hm
        have hlt : c.networkMask < n.networkMask :=
          not_le.mp fun hle => hcb ⟨hc.holds_trans hmvalid hcm hmb, hle⟩
        change m.networkMask ≤ n.networkMask
        omega
  · rcases h.new n hn with hn | hn
    · exact ⟨n, hn, hnb⟩
    · obtain ⟨hnvalid, -, -, hcn⟩ := hhalf n hn
      exact ⟨c, h.mem, hc.holds_trans hnvalid hcn hnb⟩

theorem resolves_iff (h : Halves l l' c) (hvalid : ∀ m ∈ l, m.Valid v) (hconsistent : nets.Consistent l)
    (hconsistent' : nets.Consistent l') : nets.Resolves l' x t ↔ nets.Resolves l x t := by
  rw [resolves_iff_holders hvalid, resolves_iff_holders (h.valid hvalid)]
  refine h.holders_iff hvalid hconsistent hconsistent' IpAddress.single_valid fun hmask => absurd h.bits ?_
  have hfamily := (hvalid c h.mem).family
  rw [IpAddress.addressBits, hfamily, ← hmask]
  exact lt_irrefl _

end Halves

end

end AllInSafe.Routes
