import AllInSafe.Routes.Lemmas.Slips

/-!
# The slips in front of the current net

The current net is the least pending one. Each of the five things that an iteration can do leaves the same blocks
doubled and the same nets hidden.
-/

namespace AllInSafe.Routes
open AllInSafe.Library

section

variable {v t : Bool} {l : List IpAddress} {b c k : IpAddress} {x : Nat}

/-! ## Addresses that only the current net covers -/

theorem resolves_of_only (hc : c ∈ l) (hx : c.Covers x) (honly : ∀ n ∈ l, n.Covers x → n = c) :
    nets.Resolves l x c.included :=
  ⟨c, ⟨hc, hx, fun n hn hnx => by rw [honly n hn hnx]⟩, rfl⟩

theorem eq_of_only (honly : ∀ n ∈ l, n.Covers x → n = c) (h : nets.Resolves l x t) : c.Covers x ∧ t = c.included := by
  obtain ⟨n, hn, rfl⟩ := h
  obtain rfl := honly n hn.mem hn.covers
  exact ⟨hn.covers, rfl⟩

/-- What the loop enters there lies in the current net. -/
theorem Enters.holds_of_only (h : Enters l b t) (honly : ∀ n ∈ l, n.Covers b.getFirstAddress → n = c) :
    holders.Covers c b := by
  obtain ⟨hresolves, m, hm, hbase, -, n, hn, -⟩ := h
  have hx := hn.covers.1
  rw [hbase] at hx
  obtain rfl := honly n hn.mem hx
  exact ⟨hx, hn.covers.2.trans (Nat.le_of_lt_succ hm)⟩

/-- There the loop enters every block of the current net. -/
theorem Enters.of_only (hvalid : ∀ n ∈ l, n.Valid v) (hc : c ∈ l) (hb : b.Valid v) (hholds : holders.Covers c b)
    (honly : ∀ n ∈ l, n.Covers b.getFirstAddress → n = c) : Enters l b c.included := by
  have hresolves := resolves_of_only hc hholds.1 honly
  rcases hholds.1.1.eq_or_lt with hfirst | hlt
  · exact .of_mem hvalid hb hc hfirst hholds.2 hresolves
  · obtain ⟨m, hm, hbase, hsecond, hmask⟩ := (hvalid c hc).exists_isSecondHalf hb hholds hlt
    refine ⟨hresolves, m, Nat.lt_succ_of_le hm, hbase, .inr hsecond, c, ⟨hc, ?_, fun n hn hnb => ?_⟩, rfl⟩
    · exact ⟨hbase.symm ▸ hholds.1, hmask.le⟩
    · rw [honly n hn (hbase ▸ hnb.1)]

/-! ## The current net is done -/

/-- Addresses after the current net do not need it. -/
theorem mem_finish (hx : c.getLastAddress < x) (n : IpAddress) (hn : n.Covers x) : n ∈ c :: l ↔ n ∈ l :=
  List.mem_cons.trans (or_iff_right fun heq => absurd (heq ▸ hn.2) (not_le_of_gt hx))

theorem resolves_finish (hx : c.getLastAddress < x) : nets.Resolves (c :: l) x t ↔ nets.Resolves l x t :=
  Entries.Resolves.congr (mem_finish hx)

theorem holders_finish (hb : c.getLastAddress < b.getFirstAddress) :
    holders.Resolves (c :: l) b t ↔ holders.Resolves l b t :=
  Entries.Resolves.congr fun n hn => mem_finish hb n hn.1

theorem piece_finish (hb : c.getLastAddress < b.getFirstAddress) : Piece (c :: l) b t ↔ Piece l b t :=
  piece_congr (mem_finish hb)

theorem enters_finish (hb : c.getLastAddress < b.getFirstAddress) : Enters (c :: l) b t ↔ Enters l b t :=
  enters_congr (mem_finish hb)

section

variable (hvalid : ∀ n ∈ c :: l, n.Valid v) (hafter : ∀ n ∈ l, c.getLastAddress < n.getFirstAddress)

include hafter in
theorem only_current (hx : x ≤ c.getLastAddress) : ∀ n ∈ c :: l, n.Covers x → n = c :=
  fun n hn hnx => (List.mem_cons.mp hn).resolve_right fun hmem =>
    absurd ((hafter n hmem).trans_le (hnx.1.trans hx)) (lt_irrefl _)

include hvalid hafter in
theorem doubled_finish (hb : b.Valid v) : Doubled (c :: l) b t ↔ Doubled l b t := by
  have hc := hvalid c List.mem_cons_self
  constructor
  · intro h
    have hlt : c.getLastAddress < b.getFirstAddress := by
      by_contra hle
      have honly := only_current hafter (not_lt.mp hle)
      have hholds := h.enters.holds_of_only honly
      have ht := (eq_of_only honly h.enters.1).2
      -- The second half lies in the current net as well.
      have hsecond : c.Covers b.secondHalf.getFirstAddress := hc.covers_of_holds hb hholds
        ((IpAddress.covers_halves h.bits).mpr (.inr IpAddress.covers_getFirstAddress))
      obtain ⟨n, hn, hvalue⟩ := h.second
      obtain rfl := only_current hafter hsecond.2 n hn.mem hn.covers.1
      rw [ht] at hvalue
      exact (Bool.eq_not_self _).mp hvalue
    have hsecond := lt_secondHalf h.bits
    exact h.of (enters_finish hlt).mp (holders_finish (hlt.trans hsecond)).mp
      (fun x hx => (resolves_finish (hlt.trans_le hx)).mp) fun n hn hfirst _ _ =>
        (List.mem_cons.mp hn).resolve_left fun heq => by
          have hle := IpAddress.getFirstAddress_le_getLastAddress (n := c)
          rw [heq] at hfirst
          omega
  · intro h
    have hlt : c.getLastAddress < b.getFirstAddress := by
      obtain ⟨n, hn, -⟩ := h.enters.1
      exact (hafter n hn.mem).trans_le hn.covers.1
    have hsecond := lt_secondHalf h.bits
    exact h.of (enters_finish hlt).mpr (holders_finish (hlt.trans hsecond)).mpr
      (fun x hx => (resolves_finish (hlt.trans_le hx)).mpr) fun n hn _ _ _ => List.mem_cons_of_mem c hn

include hvalid hafter in
theorem hidden_finish (hk : k.Valid v) (hlt : c.getLastAddress < k.getFirstAddress) :
    Hidden (c :: l) k ↔ Hidden l k := by
  have hc := hvalid c List.mem_cons_self
  have hle := IpAddress.getFirstAddress_le_getLastAddress (n := c)
  have hpiece : ∀ m, (k.around m).getFirstAddress = k.getFirstAddress →
      (Piece (c :: l) (k.around m) (!k.included) ↔ Piece l (k.around m) (!k.included)) :=
    fun m hbase => piece_finish (by rwa [hbase])
  constructor
  · intro h
    -- The block before the net does not start in the current net: that would hold the net too.
    have hwithin : ∀ m < k.networkMask, (k.around m).secondHalf.getFirstAddress = k.getFirstAddress →
        Enters (c :: l) (k.around m) k.included → c.getLastAddress < (k.around m).getFirstAddress := by
      intro m hm hbase henters
      by_contra hge
      have hholds := henters.holds_of_only (only_current hafter (not_lt.mp hge))
      have hcovers : c.Covers k.getFirstAddress :=
        hc.covers_of_holds (hk.around hm.le) hholds (hk.around_holds hm.le).1
      exact absurd hcovers.2 (not_le_of_gt hlt)
    obtain ⟨m, hm, hbase, henters, hbefore⟩ := h.within
    have hstart := hwithin m hm hbase henters
    refine ⟨⟨m, hm, hbase, (enters_finish hstart).mp henters,
      fun i hi => (resolves_finish (hstart.trans_le (Nat.le_add_right _ i))).mp (hbefore i hi)⟩, ?_, ?_⟩
    · obtain ⟨m, hm, hbase, hlarger⟩ := h.larger
      exact ⟨m, hm, hbase, (hpiece m hbase).mp hlarger⟩
    · exact fun j hj => h.smallest j (List.mem_cons_of_mem c hj)
  · intro h
    obtain ⟨m, hm, hbase, henters, hbefore⟩ := h.within
    have hstart : c.getLastAddress < (k.around m).getFirstAddress := by
      obtain ⟨n, hn, -⟩ := henters.1
      exact (hafter n hn.mem).trans_le hn.covers.1
    refine ⟨⟨m, hm, hbase, (enters_finish hstart).mpr henters,
      fun i hi => (resolves_finish (hstart.trans_le (Nat.le_add_right _ i))).mpr (hbefore i hi)⟩, ?_, ?_⟩
    · obtain ⟨m, hm, hbase, hlarger⟩ := h.larger
      exact ⟨m, hm, hbase, (hpiece m hbase).mpr hlarger⟩
    · intro j hj hfirst hincluded
      rcases List.mem_cons.mp hj with rfl | hj
      · omega
      · exact h.smallest j hj hfirst hincluded

end

end

/-! ## The next net -/

namespace Keeps

variable {v t : Bool} {l ipsDone networks : List IpAddress} {currentNet nextNet k : IpAddress} {x : Nat}

section

variable (h : Keeps v l ipsDone (currentNet :: nextNet :: networks))
  (hcurrent : ∀ n ∈ nextNet :: networks, currentNet.compareTo n ≠ .gt)
  (hnext : ∀ n ∈ networks, nextNet.compareTo n ≠ .gt)

include hcurrent in
theorem current_least : ∀ n ∈ currentNet :: nextNet :: networks,
    currentNet.getFirstAddress ≤ n.getFirstAddress :=
  List.forall_mem_cons.mpr ⟨le_rfl, fun n hn => IpAddress.le_of_compareTo (hcurrent n hn)⟩

include hnext in
theorem next_least : ∀ n ∈ nextNet :: networks, nextNet.getFirstAddress ≤ n.getFirstAddress :=
  List.forall_mem_cons.mpr ⟨le_rfl, fun n hn => IpAddress.le_of_compareTo (hnext n hn)⟩

include hnext in
/-- Before the next net only the current one covers anything. -/
theorem only_current (hx : x < nextNet.getFirstAddress) :
    ∀ n ∈ currentNet :: nextNet :: networks, n.Covers x → n = currentNet :=
  fun n hn hnx => (List.mem_cons.mp hn).resolve_right fun hmem =>
    absurd ((next_least hnext n hmem).trans hnx.1) (not_le_of_gt hx)

/-! ### Nets that are left out -/

include h hcurrent hnext in
/-- The next net takes the place of the current one. -/
theorem yields_current (hbase : sameBase currentNet nextNet = true)
    (hincluded : currentNet.included = nextNet.included) :
    Yields (currentNet :: nextNet :: networks) (nextNet :: networks) currentNet := by
  obtain ⟨hc, hn⟩ := h.validHead
  obtain ⟨hfirst, hmask⟩ := IpAddress.sameBase_iff.mp hbase
  have haround : (currentNet.around nextNet.networkMask).getFirstAddress = nextNet.getFirstAddress :=
    (hc.around hmask).getFirstAddress_eq_of_covers hn (hc.around_holds hmask).1
      (hfirst ▸ IpAddress.covers_getFirstAddress) rfl
  have hpiece : Piece (nextNet :: networks) (currentNet.around nextNet.networkMask) nextNet.included :=
    .of_mem List.mem_cons_self rfl haround.symm
  refine ⟨⟨List.mem_cons_self, fun m hm => List.mem_cons_of_mem _ hm, fun m hm => (List.mem_cons.mp hm).symm, nextNet,
    ⟨List.mem_cons_self, IpAddress.Valid.holds_of_equals hfirst.symm hmask, fun m hm hmc => ?_⟩, hincluded.symm⟩,
    ⟨nextNet.networkMask, hmask, haround.trans hfirst.symm, hincluded ▸ hpiece⟩, fun x hx t ht => ?_⟩
  · -- Nothing is between the current net and the next one.
    rcases List.mem_cons.mp hm with rfl | hm
    · exact le_rfl
    · rcases IpAddress.compareTo_ne_gt_iff.mp (hnext m hm) with hlt | ⟨-, hle⟩
      · have := hmc.1.1
        omega
      · exact hle
  · exact absurd (le_of_resolves (current_least hcurrent) ht) (not_le_of_gt hx)

section

variable (hfirst : currentNet.getFirstAddress < nextNet.getFirstAddress)
  (hholds : holders.Covers currentNet nextNet) (hincluded : currentNet.included = nextNet.included)

include h hnext hfirst hholds hincluded in
/-- A net in the current one, of its type, is hidden when something larger starts there with the other type. -/
theorem hidden_of_larger {m : Nat} (hm : m < nextNet.networkMask)
    (hbase : (nextNet.around m).getFirstAddress = nextNet.getFirstAddress)
    (hpiece : Piece (currentNet :: nextNet :: networks) (nextNet.around m) (!nextNet.included)) :
    Hidden (currentNet :: nextNet :: networks) nextNet := by
  obtain ⟨hc, hn⟩ := h.validHead
  refine ⟨?_, ⟨m, hm, hbase, hpiece⟩, fun k hk hkfirst hkincluded => ?_⟩
  · obtain ⟨j, hj, hjfirst, hsecond, hmask⟩ := hc.exists_isSecondHalf hn hholds hfirst
    obtain ⟨hpos, hparent⟩ := hsecond.secondHalf_around (hn.around hj)
    have hpred : j - 1 ≤ nextNet.networkMask := (Nat.sub_le _ _).trans hj
    have hlt : (nextNet.around (j - 1)).getFirstAddress < nextNet.getFirstAddress := hjfirst ▸ hsecond
    have hblock : holders.Covers currentNet (nextNet.around (j - 1)) :=
      hc.holds (hn.around hpred) hholds.1 (hn.around_holds hpred).1 (Nat.le_pred_of_lt hmask)
    refine ⟨j - 1, by simp at hpos; omega, hparent.trans hjfirst, ?_, fun i hi => ?_⟩
    · rw [← hincluded]
      exact .of_only h.valid List.mem_cons_self (hn.around hpred) hblock (only_current hnext hlt)
    · have hx : (nextNet.around (j - 1)).getFirstAddress + i < nextNet.getFirstAddress := by omega
      rw [← hincluded]
      refine resolves_of_only List.mem_cons_self ⟨?_, hx.le.trans hholds.1.2⟩ (only_current hnext hx)
      exact hblock.1.1.trans (Nat.le_add_right _ i)
  · rcases List.mem_cons.mp hk with rfl | hk
    · omega
    · rcases List.mem_cons.mp hk with rfl | hkmem
      · exact ((Bool.eq_not_self _).mp hkincluded).elim
      · rcases IpAddress.compareTo_ne_gt_iff.mp (hnext k hkmem) with hlt | ⟨-, hle⟩
        · omega
        · refine lt_of_le_of_ne hle fun heq => ?_
          have hsame := h.consistent k (List.mem_cons_of_mem _ hk) nextNet (List.mem_cons_of_mem _ List.mem_cons_self)
            nextNet.getFirstAddress (hkfirst ▸ IpAddress.covers_getFirstAddress) IpAddress.covers_getFirstAddress heq
          exact (Bool.eq_not_self _).mp (hsame.symm.trans hkincluded)

section

variable (hhidden : ¬ Hidden (currentNet :: nextNet :: networks) nextNet)

include h hnext hfirst hholds hincluded hhidden in
/-- Otherwise what is left around the next net has its type. -/
theorem included_of_not_hidden {n : IpAddress} (hmem : n ∈ networks) (hx : n.Covers nextNet.getFirstAddress)
    (hmask : n.networkMask ≤ nextNet.networkMask) : n.included = nextNet.included := by
  by_contra hother
  have hn := h.validHead.2
  have hnmem : n ∈ currentNet :: nextNet :: networks := List.mem_cons_of_mem _ (List.mem_cons_of_mem _ hmem)
  have hnfirst := h.first_eq_of_covers hnext hmem IpAddress.covers_getFirstAddress hx hmask
  have haround : (nextNet.around n.networkMask).getFirstAddress = n.getFirstAddress :=
    (hn.around hmask).getFirstAddress_eq_of_covers (h.valid n hnmem) (hn.around_holds hmask).1 hx rfl
  have hlt : n.networkMask < nextNet.networkMask := by
    refine lt_of_le_of_ne hmask fun heq => hother ?_
    exact h.consistent n hnmem nextNet (List.mem_cons_of_mem _ List.mem_cons_self) _ hx
      IpAddress.covers_getFirstAddress heq
  refine hhidden (h.hidden_of_larger hnext hfirst hholds hincluded hlt (haround.trans hnfirst) ?_)
  rw [← Bool.eq_not.mpr hother]
  exact .of_mem hnmem rfl haround.symm

include h hnext hfirst hholds hincluded hhidden in
theorem resolves_of_not_hidden {m : Nat} (hm : m ≤ nextNet.networkMask)
    (hbase : (nextNet.around m).getFirstAddress = nextNet.getFirstAddress) (hmask : currentNet.networkMask ≤ m) :
    holders.Resolves (currentNet :: networks) (nextNet.around m) nextNet.included := by
  obtain ⟨n, hn⟩ := Entries.Best.exists (E := holders) (l := currentNet :: networks) (x := nextNet.around m)
    List.mem_cons_self ⟨hbase.symm ▸ hholds.1, hmask⟩
  refine ⟨n, hn, ?_⟩
  rcases List.mem_cons.mp hn.mem with rfl | hmem
  · exact hincluded
  · exact h.included_of_not_hidden hnext hfirst hholds hincluded hhidden hmem (hbase ▸ hn.covers.1)
      (hn.covers.2.trans hm)

include h hnext hfirst hholds hincluded hhidden in
theorem yields_next :
    Yields (currentNet :: nextNet :: networks) (currentNet :: networks) nextNet := by
  obtain ⟨hc, hn⟩ := h.validHead
  obtain ⟨j, hj, hjfirst, hsecond, hmask⟩ := hc.exists_isSecondHalf hn hholds hfirst
  refine ⟨⟨List.mem_cons_of_mem _ List.mem_cons_self, fun m hm => ?_, fun m hm => ?_, ?_⟩, ⟨j, hj, hjfirst, ?_⟩,
    fun x hx t ht => ?_⟩
  · rcases List.mem_cons.mp hm with rfl | hm
    · exact List.mem_cons_self
    · exact List.mem_cons_of_mem _ (List.mem_cons_of_mem _ hm)
  · rcases List.mem_cons.mp hm with rfl | hm
    · exact .inl List.mem_cons_self
    · exact (List.mem_cons.mp hm).symm.imp_left (List.mem_cons_of_mem _)
  · exact h.resolves_of_not_hidden hnext hfirst hholds hincluded hhidden le_rfl rfl hholds.2
  · exact ⟨.inr hsecond, h.resolves_of_not_hidden hnext hfirst hholds hincluded hhidden hj hjfirst hmask.le⟩
  · rw [← hincluded]
    exact (eq_of_only (only_current hnext hx) ht).2

end

end

/-! ### Nets that are split -/

include h hcurrent in
/-- At its first address the current net is the smallest one. -/
theorem eq_current (ht : nets.Resolves (currentNet :: nextNet :: networks) currentNet.getFirstAddress t) :
    t = currentNet.included := by
  refine ht.unique h.consistent ⟨currentNet, ⟨List.mem_cons_self, IpAddress.covers_getFirstAddress, fun n hn hx => ?_⟩,
    rfl⟩
  rcases List.mem_cons.mp hn with rfl | hn
  · exact le_rfl
  · rcases IpAddress.compareTo_ne_gt_iff.mp (hcurrent n hn) with hlt | ⟨-, hle⟩
    · exact absurd hx.1 (not_le_of_gt hlt)
    · exact hle

include hnext in
/-- At its first address the next net is the smallest one, when it lies in the current one. -/
theorem resolves_next (hmask : currentNet.networkMask ≤ nextNet.networkMask) :
    nets.Resolves (currentNet :: nextNet :: networks) nextNet.getFirstAddress nextNet.included := by
  refine ⟨nextNet,
    ⟨List.mem_cons_of_mem _ List.mem_cons_self, IpAddress.covers_getFirstAddress, fun n hn hx => ?_⟩, rfl⟩
  rcases List.mem_cons.mp hn with rfl | hn
  · exact hmask
  · rcases List.mem_cons.mp hn with rfl | hn
    · exact le_rfl
    · rcases IpAddress.compareTo_ne_gt_iff.mp (hnext n hn) with hlt | ⟨-, hle⟩
      · exact absurd hx.1 (not_le_of_gt hlt)
      · exact hle

section

variable (hbase : sameBase currentNet nextNet = true) (hincluded : currentNet.included ≠ nextNet.included)

include h hcurrent hbase hincluded in
theorem enters_splitNext {b : IpAddress} (hb : b.Valid v) : Enters (currentNet :: nextNet :: networks) b t ↔
    Enters (currentNet :: afterSplit currentNet nextNet networks) b t := by
  have hfirst := (IpAddress.sameBase_iff.mp hbase).1
  refine (h.halves_next hbase hincluded).2.enters_iff_of_other h.valid h.consistent
    (h.splitNext hbase hincluded).2.2.consistent (fun n hn => ?_) hb fun t ht => ?_
  · exact hfirst ▸ current_least hcurrent n hn
  · rw [← hfirst] at ht
    rw [h.eq_current hcurrent ht]
    exact hincluded

include h hcurrent hbase hincluded in
theorem doubled_splitNext {b : IpAddress} (hb : b.Valid v) : Doubled (currentNet :: nextNet :: networks) b t ↔
    Doubled (currentNet :: afterSplit currentNet nextNet networks) b t :=
  (h.halves_next hbase hincluded).2.doubled_iff h.valid h.consistent (h.splitNext hbase hincluded).2.2.consistent
    (fun n hn => (IpAddress.sameBase_iff.mp hbase).1 ▸ current_least hcurrent n hn)
    (h.enters_splitNext hcurrent hbase hincluded hb) hb

include h hcurrent hbase hincluded in
theorem hidden_splitNext (hk : k.Valid v) : Hidden (currentNet :: nextNet :: networks) k ↔
    Hidden (currentNet :: afterSplit currentNet nextNet networks) k := by
  have hsplit := (h.halves_next hbase hincluded).2
  have hconsistent := (h.splitNext hbase hincluded).2.2.consistent
  have hleast : ∀ n ∈ currentNet :: nextNet :: networks, nextNet.getFirstAddress ≤ n.getFirstAddress :=
    fun n hn => (IpAddress.sameBase_iff.mp hbase).1 ▸ current_least hcurrent n hn
  constructor
  · exact fun hhidden => hsplit.hidden h.valid h.consistent hconsistent hleast hk hhidden fun m hm _ =>
      (h.enters_splitNext hcurrent hbase hincluded (hk.around hm.le)).mp
  · exact fun hhidden => hsplit.hidden_of h.valid h.consistent hconsistent hleast hk hhidden fun m hm _ =>
      (h.enters_splitNext hcurrent hbase hincluded (hk.around hm.le)).mpr

end

section

variable (hfirst : currentNet.getFirstAddress < nextNet.getFirstAddress)
  (hlast : nextNet.getLastAddress ≤ currentNet.getLastAddress)
  (hmask : currentNet.networkMask < nextNet.networkMask)
  (hbits : currentNet.networkMask < currentNet.addressBits)
  (hincluded : currentNet.included ≠ nextNet.included)

include h hnext hfirst hmask hbits hincluded in
/-- A second half that is added beside an equal net of the other type. -/
theorem doubled_of_overlay (hne : currentNet.secondHalf.networkMask ≠ nextNet.networkMask) {n : IpAddress}
    (hn : n ∈ networks) (hequals : currentNet.secondHalf.equals n = true)
    (hother : n.included ≠ currentNet.included) :
    Doubled (currentNet :: nextNet :: networks) currentNet currentNet.included := by
  obtain ⟨hnmask, hnfirst⟩ := IpAddress.equals_iff.mp hequals
  have hnmem : n ∈ currentNet :: nextNet :: networks := List.mem_cons_of_mem _ (List.mem_cons_of_mem _ hn)
  have hnext' : nextNet.included = !currentNet.included := Bool.eq_not.mpr hincluded.symm
  refine ⟨hbits, ?_, ?_, ?_⟩
  · exact .of_only h.valid List.mem_cons_self h.validHead.1 ⟨IpAddress.covers_getFirstAddress, le_rfl⟩
      (only_current hnext hfirst)
  · rw [← Bool.eq_not.mpr hother]
    exact (Piece.of_mem hnmem hnmask hnfirst).2
  · rcases IpAddress.compareTo_ne_gt_iff.mp (hnext n hn) with hlt | ⟨heq, hle⟩
    · -- The next net starts in the first half.
      refine .inl ⟨nextNet.getFirstAddress - currentNet.getFirstAddress, by omega, ?_⟩
      rw [Nat.add_sub_cancel' hfirst.le, ← hnext']
      exact resolves_next hnext hmask.le
    · refine .inr ⟨nextNet, List.mem_cons_of_mem _ List.mem_cons_self, heq.trans hnfirst, ?_, hnext'⟩
      exact lt_of_le_of_ne (hnmask.le.trans hle) hne

section

variable (hsame : currentNet.secondHalf.networkMask ≠ nextNet.networkMask → ∀ n ∈ networks,
  currentNet.secondHalf.equals n = true → n.included = currentNet.included)

include h hnext hfirst hlast hbits hsame in
/-- Otherwise the current net is not doubled. -/
theorem not_doubled_current {b : IpAddress} (hb : b.Valid v) (hbmask : b.networkMask = currentNet.networkMask)
    (hbfirst : b.getFirstAddress = currentNet.getFirstAddress) :
    ¬ Doubled (currentNet :: nextNet :: networks) b t := by
  intro hdoubled
  have hc := h.validHead.1
  have honly : ∀ n ∈ currentNet :: nextNet :: networks, n.Covers currentNet.getFirstAddress → n = currentNet :=
    only_current hnext hfirst
  have ht : t = currentNet.included := (eq_of_only honly (hbfirst ▸ hdoubled.enters.1)).2
  have hsecondmask : b.secondHalf.networkMask = currentNet.secondHalf.networkMask := congrArg (· + 1) hbmask
  have hsecondfirst : b.secondHalf.getFirstAddress = currentNet.secondHalf.getFirstAddress :=
    hb.secondHalf_eq hc hdoubled.bits hbmask hbfirst
  -- The smallest net around the second half is equal to it.
  obtain ⟨k, hk, hvalue⟩ := hdoubled.second
  have hother : k.included ≠ currentNet.included := Bool.eq_not.mp (ht ▸ hvalue)
  have hkx := hk.covers.1
  rw [hsecondfirst] at hkx
  have hkmem : k ∈ nextNet :: networks := (List.mem_cons.mp hk.mem).resolve_left fun heq => hother (by rw [heq])
  have hkafter : nextNet.getFirstAddress ≤ k.getFirstAddress := next_least hnext k hkmem
  have hkmask : k.networkMask = currentNet.secondHalf.networkMask := by
    refine le_antisymm (hk.covers.2.trans hsecondmask.le) (Nat.succ_le_of_lt (not_le.mp fun hle => ?_))
    have hx : currentNet.Covers currentNet.secondHalf.getFirstAddress :=
      (IpAddress.covers_halves hbits).mpr (.inr IpAddress.covers_getFirstAddress)
    have := ((h.valid k hk.mem).nested hc hkx hx hle).1
    omega
  have hkfirst : k.getFirstAddress = currentNet.secondHalf.getFirstAddress :=
    (h.valid k hk.mem).getFirstAddress_eq_of_covers (hc.secondHalf hbits) hkx IpAddress.covers_getFirstAddress hkmask
  by_cases hne : currentNet.secondHalf.networkMask = nextNet.networkMask
  · -- The next net is the second half, and nothing else makes the loop split the block.
    have hnfirst := h.next_eq_secondHalf hbits hfirst hlast hne
    rcases hdoubled.split with ⟨i, hi, hx⟩ | ⟨j, hj, hjfirst, hjmask, -⟩
    · have := (eq_of_only (only_current hnext (show b.getFirstAddress + i < nextNet.getFirstAddress by omega)) hx).2
      rw [ht] at this
      exact (Bool.eq_not_self _).mp this.symm
    · rcases List.mem_cons.mp hj with rfl | hj
      · omega
      · rcases List.mem_cons.mp hj with rfl | hj
        · omega
        · rcases IpAddress.compareTo_ne_gt_iff.mp (hnext j hj) with hlt | ⟨-, hle⟩
          · omega
          · omega
  · rcases List.mem_cons.mp hkmem with rfl | hkmem
    · exact hne hkmask.symm
    · exact hother (hsame hne k hkmem (IpAddress.equals_iff.mpr ⟨hkmask.symm, hkfirst⟩))

include h hnext hfirst hlast hbits hsame in
theorem enters_splitCurrent {b : IpAddress} (hb : b.Valid v)
    (hblock : b.networkMask = currentNet.networkMask → b.getFirstAddress ≠ currentNet.getFirstAddress) :
    Enters (currentNet :: nextNet :: networks) b t ↔
      Enters (currentNet.firstHalf :: withSecondHalf currentNet nextNet networks) b t :=
  (h.halves_current hfirst hlast hbits).enters_iff_of_own h.valid h.consistent
    (h.splitCurrent hnext hfirst hlast hbits hsame).consistent hb List.mem_cons_self
    (fun _ ht => (eq_of_only (only_current hnext hfirst) ht).2) hblock

include h hcurrent hnext hfirst hlast hbits in
theorem not_enters_splitCurrent {b : IpAddress} (hbmask : b.networkMask = currentNet.networkMask)
    (hbfirst : b.getFirstAddress = currentNet.getFirstAddress) :
    ¬ Enters (currentNet.firstHalf :: withSecondHalf currentNet nextNet networks) b t := by
  refine (h.halves_current hfirst hlast hbits).not_enters (current_least hcurrent) (fun n hn hnfirst => ?_) hbmask
    hbfirst
  rcases List.mem_cons.mp hn with rfl | hn
  · exact Nat.lt_succ_self _
  · rcases mem_withSecondHalf.mp hn with rfl | hn | ⟨rfl, -⟩
    · omega
    · have := next_least hnext n (List.mem_cons_of_mem _ hn)
      omega
    · exact Nat.lt_succ_self _

include h hcurrent hnext hfirst hlast hbits hsame in
theorem doubled_splitCurrent {b : IpAddress} (hb : b.Valid v) : Doubled (currentNet :: nextNet :: networks) b t ↔
    Doubled (currentNet.firstHalf :: withSecondHalf currentNet nextNet networks) b t := by
  by_cases hblock : b.networkMask = currentNet.networkMask ∧ b.getFirstAddress = currentNet.getFirstAddress
  · obtain ⟨hbmask, hbfirst⟩ := hblock
    constructor
    · exact fun hdoubled =>
        absurd hdoubled (h.not_doubled_current hnext hfirst hlast hbits hsame hb hbmask hbfirst)
    · exact fun hdoubled =>
        absurd hdoubled.enters (h.not_enters_splitCurrent hcurrent hnext hfirst hlast hbits hbmask hbfirst)
  · exact (h.halves_current hfirst hlast hbits).doubled_iff h.valid h.consistent
      (h.splitCurrent hnext hfirst hlast hbits hsame).consistent (current_least hcurrent)
      (h.enters_splitCurrent hnext hfirst hlast hbits hsame hb fun hm hf => hblock ⟨hm, hf⟩) hb

include h hcurrent hnext hfirst hlast hmask hbits hincluded hsame in
theorem hidden_splitCurrent (hk : k.Valid v) (hafter : nextNet.compareTo k ≠ .gt) :
    Hidden (currentNet :: nextNet :: networks) k ↔
      Hidden (currentNet.firstHalf :: withSecondHalf currentNet nextNet networks) k := by
  have hsplit := h.halves_current hfirst hlast hbits
  have hconsistent := (h.splitCurrent hnext hfirst hlast hbits hsame).consistent
  have hleast := current_least hcurrent
  constructor
  · intro hhidden
    refine hsplit.hidden h.valid h.consistent hconsistent hleast hk hhidden fun m hm hbase henters => ?_
    refine (h.enters_splitCurrent hnext hfirst hlast hbits hsame (hk.around hm.le) fun hbmask hbfirst => ?_).mp henters
    -- Were it the current net that is entered, the next net would start before the hidden one.
    have hkincluded := h.eq_current hcurrent (hbfirst ▸ henters.1)
    have hother : nextNet.included = !k.included := by
      rw [hkincluded]
      exact Bool.eq_not.mpr hincluded.symm
    rcases IpAddress.compareTo_ne_gt_iff.mp hafter with hlt | ⟨heq, hle⟩
    · obtain ⟨j, hj, hjbase, -, hbefore⟩ := hhidden.within
      have hsecond : ∀ i < k.networkMask, (k.around i).secondHalf.getFirstAddress = k.getFirstAddress →
          (k.around i).secondHalf.IsSecondHalf ∧ (k.around i).secondHalf.Valid v := fun i hi _ =>
        ⟨(hk.around hi.le).isSecondHalf (hi.trans_le hk.networkMask_le),
          (hk.around hi.le).secondHalf (hi.trans_le hk.networkMask_le)⟩
      obtain ⟨hmsecond, hmvalid⟩ := hsecond m hm hbase
      obtain ⟨hjsecond, hjvalid⟩ := hsecond j hj hjbase
      have hjm : j = m := by
        have hle := hmsecond.le hmvalid hjvalid (hjbase.trans hbase.symm)
        have hge := hjsecond.le hjvalid hmvalid (hbase.trans hjbase.symm)
        exact le_antisymm (Nat.le_of_succ_le_succ hge) (Nat.le_of_succ_le_succ hle)
      subst hjm
      rw [hbfirst] at hbefore
      have hx := hbefore (nextNet.getFirstAddress - currentNet.getFirstAddress) (by omega)
      rw [Nat.add_sub_cancel' hfirst.le] at hx
      have hsame := hx.unique h.consistent (resolves_next hnext hmask.le)
      rw [hother] at hsame
      exact (Bool.eq_not_self _).mp hsame
    · have hlt := hhidden.smallest nextNet (List.mem_cons_of_mem _ List.mem_cons_self) heq hother
      omega
  · intro hhidden
    refine hsplit.hidden_of h.valid h.consistent hconsistent hleast hk hhidden fun m hm _ henters => ?_
    refine (h.enters_splitCurrent hnext hfirst hlast hbits hsame (hk.around hm.le) fun hbmask hbfirst => ?_).mpr henters
    exact h.not_enters_splitCurrent hcurrent hnext hfirst hlast hbits hbmask hbfirst henters

end

end

end

end Keeps

end AllInSafe.Routes
