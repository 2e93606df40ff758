import AllInSafe.Routes.Lemmas.Pieces

/-!
# An iteration changes nothing about the slips

Whether a block is doubled, and whether a net is hidden, is the same for the pending nets before and after an iteration
that meets neither slip: the nets that the loop has dealt with are no longer needed to tell.
-/

namespace AllInSafe.Routes
open AllInSafe.Library

section

variable {v t : Bool} {l l' : List IpAddress} {b b' c n k : IpAddress} {m x : Nat}

/-! ## From one list of nets to another -/

theorem Enters.of (h : Enters l b t)
    (hresolves : nets.Resolves l b.getFirstAddress t → nets.Resolves l' b.getFirstAddress t)
    (hpiece : ∀ m ≤ b.networkMask, (b.around m).getFirstAddress = b.getFirstAddress → Piece l (b.around m) t →
      ∃ m' ≤ b.networkMask, (b.around m').getFirstAddress = b.getFirstAddress ∧ Piece l' (b.around m') t) :
    Enters l' b t := by
  obtain ⟨hfirst, m, hm, hbase, hm'⟩ := h
  obtain ⟨m', hle, hbase', hpiece'⟩ := hpiece m (Nat.le_of_lt_succ hm) hbase hm'
  exact ⟨hresolves hfirst, m', Nat.lt_succ_of_le hle, hbase', hpiece'⟩

theorem Doubled.of (h : Doubled l b t) (henters : Enters l b t → Enters l' b t)
    (hholders : holders.Resolves l b.secondHalf (!t) → holders.Resolves l' b.secondHalf (!t))
    (hresolves : ∀ x, b.getFirstAddress ≤ x → nets.Resolves l x (!t) → nets.Resolves l' x (!t))
    (hmem : ∀ n ∈ l, n.getFirstAddress = b.secondHalf.getFirstAddress → b.secondHalf.networkMask < n.networkMask →
      n.included = !t → n ∈ l') : Doubled l' b t where
  bits := h.bits
  enters := henters h.enters
  second := hholders h.second
  split := h.split.imp (fun ⟨i, hi, hx⟩ => ⟨i, hi, hresolves _ (Nat.le_add_right _ i) hx⟩)
    fun ⟨n, hn, hfirst, hmask, hincluded⟩ => ⟨n, hmem n hn hfirst hmask hincluded, hfirst, hmask, hincluded⟩

theorem Hidden.of (h : Hidden l n)
    (henters : ∀ m < n.networkMask, (n.around m).secondHalf.getFirstAddress = n.getFirstAddress →
      Enters l (n.around m) n.included → Enters l' (n.around m) n.included)
    (hresolves : ∀ x < n.getFirstAddress, nets.Resolves l x n.included → nets.Resolves l' x n.included)
    (hpiece : ∀ m < n.networkMask, (n.around m).getFirstAddress = n.getFirstAddress →
      Piece l (n.around m) (!n.included) → Piece l' (n.around m) (!n.included))
    (hsmallest : ∀ k ∈ l', k ∉ l → k.getFirstAddress = n.getFirstAddress → k.included = !n.included →
      k.networkMask < n.networkMask) : Hidden l' n where
  within := by
    obtain ⟨m, hm, hbase, henter, hbefore⟩ := h.within
    exact ⟨m, hm, hbase, henters m hm hbase henter, fun i hi => hresolves _ (by omega) (hbefore i hi)⟩
  larger := by
    obtain ⟨m, hm, hbase, hlarger⟩ := h.larger
    exact ⟨m, hm, hbase, hpiece m hm hbase hlarger⟩
  smallest k hk hfirst hincluded := by
    by_cases hold : k ∈ l
    · exact h.smallest k hold hfirst hincluded
    · exact hsmallest k hk hold hfirst hincluded

/-- Only the block matters. -/
theorem Piece.congr (h : Piece l b t) (hb : b.Valid v) (hb' : b'.Valid v) (hmask : b.networkMask = b'.networkMask)
    (hfirst : b.getFirstAddress = b'.getFirstAddress) : Piece l b' t := by
  have hle : b.networkMask - 1 ≤ b.networkMask := Nat.sub_le _ _
  have hle' : b'.networkMask - 1 ≤ b'.networkMask := Nat.sub_le _ _
  obtain ⟨hwhich, n, hn, hvalue⟩ := h
  refine ⟨hwhich.imp (fun hcontains => ?_) fun hsecond => ?_, n,
    ⟨hn.mem, ?_, fun k hk hkb => hn.longest k hk ?_⟩, hvalue⟩
  · rw [containsNet_iff] at hcontains ⊢
    rwa [← hmask, ← hfirst]
  · have hparent : (b.around (b.networkMask - 1)).getFirstAddress = (b'.around (b'.networkMask - 1)).getFirstAddress :=
      (hb.around hle).getFirstAddress_eq_of_covers (hb'.around hle') (hb.around_holds hle).1
        (hfirst ▸ (hb'.around_holds hle').1) (by simp [hmask])
    change (b'.around (b'.networkMask - 1)).getFirstAddress < b'.getFirstAddress
    rw [← hparent, ← hfirst]
    exact hsecond
  · simpa only [holders, ← hfirst, ← hmask] using hn.covers
  · simpa only [holders, hfirst, hmask] using hkb

theorem Enters.congr (h : Enters l b t) (hb : b.Valid v) (hb' : b'.Valid v) (hmask : b.networkMask = b'.networkMask)
    (hfirst : b.getFirstAddress = b'.getFirstAddress) : Enters l b' t := by
  obtain ⟨hresolves, m, hm, hbase, hpiece⟩ := h
  have hle : m ≤ b.networkMask := Nat.le_of_lt_succ hm
  have hle' : m ≤ b'.networkMask := hle.trans hmask.le
  have hsame : (b.around m).getFirstAddress = (b'.around m).getFirstAddress :=
    (hb.around hle).getFirstAddress_eq_of_covers (hb'.around hle') (hb.around_holds hle).1
      (hfirst ▸ (hb'.around_holds hle').1) rfl
  exact ⟨hfirst ▸ hresolves, m, Nat.lt_succ_of_le hle', by omega,
    hpiece.congr (hb.around hle) (hb'.around hle') rfl hsame⟩

theorem Doubled.congr (h : Doubled l b t) (hb : b.Valid v) (hb' : b'.Valid v) (hmask : b.networkMask = b'.networkMask)
    (hfirst : b.getFirstAddress = b'.getFirstAddress) : Doubled l b' t := by
  have haddress : b.addressBits = b'.addressBits := by
    rw [IpAddress.addressBits, IpAddress.addressBits, hb.family, hb'.family]
  have hbits' : b'.networkMask < b'.addressBits := by
    rw [← hmask, ← haddress]
    exact h.bits
  have hhalf : b.secondHalf.networkMask = b'.secondHalf.networkMask := congrArg (· + 1) hmask
  have hsecond := hb.secondHalf_eq hb' h.bits hmask hfirst
  have hpiece : Piece l b.secondHalf (!t) := ⟨.inr (hb.isSecondHalf h.bits), h.second⟩
  refine ⟨hbits', h.enters.congr hb hb' hmask hfirst,
    (hpiece.congr (hb.secondHalf h.bits) (hb'.secondHalf hbits') hhalf hsecond).2, ?_⟩
  rw [← hsecond, ← hfirst, ← hhalf]
  exact h.split

/-- Only the nets that cover the first address of the block matter. -/
theorem piece_congr (h : ∀ n, n.Covers b.getFirstAddress → (n ∈ l ↔ n ∈ l')) : Piece l b t ↔ Piece l' b t := by
  have hcontains : containsNet l b = true ↔ containsNet l' b = true := by
    rw [containsNet_iff, containsNet_iff]
    constructor
    · exact fun ⟨n, hn, hmask, hfirst⟩ => ⟨n, (h n (hfirst ▸ IpAddress.covers_getFirstAddress)).mp hn, hmask, hfirst⟩
    · exact fun ⟨n, hn, hmask, hfirst⟩ => ⟨n, (h n (hfirst ▸ IpAddress.covers_getFirstAddress)).mpr hn, hmask, hfirst⟩
  have hholders : holders.Resolves l b t ↔ holders.Resolves l' b t := Entries.Resolves.congr fun n hn => h n hn.1
  rw [Piece, Piece, hcontains, hholders]

theorem enters_congr (h : ∀ n, n.Covers b.getFirstAddress → (n ∈ l ↔ n ∈ l')) : Enters l b t ↔ Enters l' b t := by
  have hresolves : nets.Resolves l b.getFirstAddress t ↔ nets.Resolves l' b.getFirstAddress t :=
    Entries.Resolves.congr h
  have hpiece : ∀ m, (b.around m).getFirstAddress = b.getFirstAddress →
      (Piece l (b.around m) t ↔ Piece l' (b.around m) t) := fun m hbase => piece_congr fun n hn => h n (hbase ▸ hn)
  constructor
  · exact fun henters => henters.of hresolves.mp fun m hm hbase hp => ⟨m, hm, hbase, (hpiece m hbase).mp hp⟩
  · exact fun henters => henters.of hresolves.mpr fun m hm hbase hp => ⟨m, hm, hbase, (hpiece m hbase).mpr hp⟩

theorem doubled_congr (h : ∀ n, n ∈ l ↔ n ∈ l') : Doubled l b t ↔ Doubled l' b t := by
  constructor
  · exact fun hdoubled => hdoubled.of (enters_congr fun n _ => h n).mp (Entries.Resolves.congr fun n _ => h n).mp
      (fun _ _ => (Entries.Resolves.congr fun n _ => h n).mp) fun n hn _ _ _ => (h n).mp hn
  · exact fun hdoubled => hdoubled.of (enters_congr fun n _ => h n).mpr (Entries.Resolves.congr fun n _ => h n).mpr
      (fun _ _ => (Entries.Resolves.congr fun n _ => h n).mpr) fun n hn _ _ _ => (h n).mpr hn

theorem hidden_congr (h : ∀ n, n ∈ l ↔ n ∈ l') : Hidden l k ↔ Hidden l' k := by
  constructor
  · exact fun hhidden => hhidden.of (fun _ _ _ => (enters_congr fun n _ => h n).mp)
      (fun _ _ => (Entries.Resolves.congr fun n _ => h n).mp) (fun _ _ _ => (piece_congr fun n _ => h n).mp)
      fun n hn hnew _ _ => absurd ((h n).mpr hn) hnew
  · exact fun hhidden => hhidden.of (fun _ _ _ => (enters_congr fun n _ => h n).mpr)
      (fun _ _ => (Entries.Resolves.congr fun n _ => h n).mpr) (fun _ _ _ => (piece_congr fun n _ => h n).mpr)
      fun n hn hnew _ _ => absurd ((h n).mp hn) hnew

/-- A net is the smallest one around its own block. -/
theorem Piece.of_mem (hn : n ∈ l) (hmask : b.networkMask = n.networkMask)
    (hfirst : n.getFirstAddress = b.getFirstAddress) : Piece l b n.included :=
  ⟨.inl (containsNet_iff.mpr ⟨n, hn, hmask, hfirst⟩), n,
    ⟨hn, IpAddress.Valid.holds_of_equals hfirst hmask.ge, fun _ _ hk => hk.2.trans hmask.le⟩, rfl⟩

theorem holders_eq_of_mem (hconsistent : nets.Consistent l) (hn : n ∈ l) (hmask : b.networkMask = n.networkMask)
    (hfirst : n.getFirstAddress = b.getFirstAddress) (h : holders.Resolves l b t) : t = n.included :=
  h.unique (Consistent.holders hconsistent) (Piece.of_mem hn hmask hfirst).2

theorem Enters.of_mem (hvalid : ∀ n ∈ l, n.Valid v) (hb : b.Valid v) (hn : n ∈ l)
    (hfirst : n.getFirstAddress = b.getFirstAddress) (hmask : n.networkMask ≤ b.networkMask)
    (hresolves : nets.Resolves l b.getFirstAddress n.included) : Enters l b n.included := by
  have hbase : (b.around n.networkMask).getFirstAddress = n.getFirstAddress :=
    (hb.around hmask).getFirstAddress_eq_of_covers (hvalid n hn) (hb.around_holds hmask).1
      (hfirst ▸ IpAddress.covers_getFirstAddress) rfl
  exact ⟨hresolves, n.networkMask, Nat.lt_succ_of_le hmask, hbase.trans hfirst,
    Piece.of_mem hn rfl hbase.symm⟩

/-- No net covers an address below the lowest first address. -/
theorem le_of_resolves {y : Nat} (hleast : ∀ n ∈ l, y ≤ n.getFirstAddress) (h : nets.Resolves l x t) : y ≤ x := by
  obtain ⟨n, hn, -⟩ := h
  exact (hleast n hn.mem).trans hn.covers.1

theorem lt_secondHalf (hbits : b.networkMask < b.addressBits) :
    b.getFirstAddress < b.secondHalf.getFirstAddress := by
  have hpos : 0 < 2 ^ b.firstHalf.numBits := Nat.two_pow_pos _
  rw [IpAddress.getFirstAddress_secondHalf hbits]
  omega

/-! ## A net that is taken away -/

/-- The net is the first one of the queue to go, and where it starts a piece of its type is left. -/
structure Yields (l l' : List IpAddress) (n : IpAddress) : Prop extends Removes l l' n where
  start : ∃ k ≤ n.networkMask, (n.around k).getFirstAddress = n.getFirstAddress ∧ Piece l' (n.around k) n.included
  before : ∀ x < n.getFirstAddress, ∀ t, nets.Resolves l x t → t = n.included

namespace Yields

theorem enters_iff (h : Yields l l' n) (hvalid : ∀ m ∈ l, m.Valid v) (hconsistent : nets.Consistent l)
    (hb : b.Valid v) : Enters l b t ↔ Enters l' b t := by
  have hn := hvalid n h.mem
  constructor
  · refine fun henters => henters.of (h.resolves_iff hvalid hconsistent).mpr fun m hm hbase hpiece => ?_
    by_cases hblock : n.networkMask = m ∧ n.getFirstAddress = b.getFirstAddress
    · -- The piece that is left takes the place of the net.
      obtain ⟨rfl, hfirst⟩ := hblock
      have ht : t = n.included :=
        holders_eq_of_mem hconsistent h.mem (b.around_networkMask) (hfirst.trans hbase.symm) hpiece.2
      obtain ⟨k, hk, hkbase, hkpiece⟩ := h.start
      have hbk := hb.around (hk.trans hm)
      have hsame : (n.around k).getFirstAddress = (b.around k).getFirstAddress := by
        refine (hn.around hk).getFirstAddress_eq_of_covers hbk (hn.around_holds hk).1 ?_ rfl
        rw [hfirst]
        exact (hb.around_holds (hk.trans hm)).1
      refine ⟨k, hk.trans hm, by rw [← hsame, hkbase, hfirst], ?_⟩
      rw [ht]
      exact hkpiece.congr (hn.around hk) hbk rfl hsame
    · refine ⟨m, hm, hbase, hpiece.1.imp_left fun hcontains => ?_, (h.holders_iff hvalid hconsistent).mpr hpiece.2⟩
      obtain ⟨k, hk, hmask, hfirst⟩ := containsNet_iff.mp hcontains
      refine containsNet_iff.mpr ⟨k, (h.rest k hk).resolve_right fun heq => hblock ?_, hmask, hfirst⟩
      subst heq
      exact ⟨hmask.symm, hfirst.trans hbase⟩
  · refine fun henters => henters.of (h.resolves_iff hvalid hconsistent).mp fun m hm hbase hpiece => ?_
    refine ⟨m, hm, hbase, hpiece.1.imp_left fun hcontains => ?_, (h.holders_iff hvalid hconsistent).mp hpiece.2⟩
    obtain ⟨k, hk, hkey⟩ := containsNet_iff.mp hcontains
    exact containsNet_iff.mpr ⟨k, h.sub k hk, hkey⟩

theorem doubled_iff (h : Yields l l' n) (hvalid : ∀ m ∈ l, m.Valid v) (hconsistent : nets.Consistent l)
    (hb : b.Valid v) : Doubled l b t ↔ Doubled l' b t := by
  constructor
  · intro hdoubled
    refine hdoubled.of (h.enters_iff hvalid hconsistent hb).mp (h.holders_iff hvalid hconsistent).mpr
      (fun x _ => (h.resolves_iff hvalid hconsistent).mpr) fun k hk hfirst _ hincluded => ?_
    refine (h.rest k hk).resolve_right fun heq => ?_
    subst heq
    have ht := h.before _ (hfirst ▸ lt_secondHalf hdoubled.bits) t hdoubled.enters.1
    rw [ht] at hincluded
    exact (Bool.eq_not_self _).mp hincluded
  · intro hdoubled
    exact hdoubled.of (h.enters_iff hvalid hconsistent hb).mpr (h.holders_iff hvalid hconsistent).mp
      (fun x _ => (h.resolves_iff hvalid hconsistent).mp) fun k hk _ _ _ => h.sub k hk

theorem hidden_iff (h : Yields l l' n) (hvalid : ∀ m ∈ l, m.Valid v) (hconsistent : nets.Consistent l)
    (hk : k.Valid v) (hafter : n.compareTo k ≠ .gt) : Hidden l k ↔ Hidden l' k := by
  constructor
  · intro hhidden
    refine hhidden.of (fun m hm _ => (h.enters_iff hvalid hconsistent (hk.around hm.le)).mp)
      (fun _ _ => (h.resolves_iff hvalid hconsistent).mpr) (fun m hm hbase hpiece => ?_)
      fun j hj hnew _ _ => absurd (h.sub j hj) hnew
    refine ⟨hpiece.1.imp_left fun hcontains => ?_, (h.holders_iff hvalid hconsistent).mpr hpiece.2⟩
    obtain ⟨j, hj, hmask, hfirst⟩ := containsNet_iff.mp hcontains
    refine containsNet_iff.mpr ⟨j, (h.rest j hj).resolve_right fun heq => ?_, hmask, hfirst⟩
    subst heq
    -- The removed net comes before this one, and so is no larger net that starts there.
    rcases IpAddress.compareTo_ne_gt_iff.mp hafter with hlt | ⟨-, hle⟩
    · omega
    · simp only [IpAddress.around_networkMask] at hmask
      omega
  · intro hhidden
    refine hhidden.of (fun m hm _ => (h.enters_iff hvalid hconsistent (hk.around hm.le)).mpr)
      (fun _ _ => (h.resolves_iff hvalid hconsistent).mp) (fun m hm hbase hpiece => ?_)
      fun j hj hnew hfirst hincluded => ?_
    · refine ⟨hpiece.1.imp_left fun hcontains => ?_, (h.holders_iff hvalid hconsistent).mp hpiece.2⟩
      obtain ⟨j, hj, hkey⟩ := containsNet_iff.mp hcontains
      exact containsNet_iff.mpr ⟨j, h.sub j hj, hkey⟩
    · obtain rfl := (h.rest j hj).resolve_left hnew
      obtain ⟨m, hm, hbase, henters, -⟩ := hhidden.within
      have hbits : (k.around m).networkMask < (k.around m).addressBits := hm.trans_le hk.networkMask_le
      have hlt : (k.around m).getFirstAddress < j.getFirstAddress := by
        rw [hfirst, ← hbase]
        exact lt_secondHalf hbits
      have ht := h.before _ hlt _ ((h.resolves_iff hvalid hconsistent).mp henters.1)
      rw [ht] at hincluded
      exact ((Bool.eq_not_self _).mp hincluded).elim

end Yields

/-! ## A net that is split -/

theorem IpAddress.Valid.le_secondHalf (hc : c.Valid v) (hbits : c.networkMask < c.addressBits) (hb : b.Valid v)
    (hfirst : b.getFirstAddress = c.secondHalf.getFirstAddress) : c.secondHalf.networkMask ≤ b.networkMask :=
  (hc.isSecondHalf hbits).le (hc.secondHalf hbits) hb hfirst

namespace Halves

section

variable (h : Halves l l' c) (hvalid : ∀ n ∈ l, n.Valid v) (hconsistent : nets.Consistent l)
  (hconsistent' : nets.Consistent l') (hleast : ∀ n ∈ l, c.getFirstAddress ≤ n.getFirstAddress)

include h hleast in
theorem least : ∀ n ∈ l', c.getFirstAddress ≤ n.getFirstAddress := by
  intro n hn
  rcases h.new n hn with hn | rfl | rfl
  · exact hleast n hn
  · exact (IpAddress.getFirstAddress_firstHalf h.bits).ge
  · exact (lt_secondHalf h.bits).le

include h hvalid hconsistent hconsistent' in
theorem piece_iff (hb : b.Valid v) (hne : b.getFirstAddress ≠ c.getFirstAddress ∨ b.networkMask < c.networkMask) :
    Piece l b t ↔ Piece l' b t := by
  have hc := hvalid c h.mem
  have hblock : b.networkMask = c.networkMask → b.getFirstAddress ≠ c.getFirstAddress :=
    fun heq => hne.resolve_right (by omega)
  constructor
  · rintro ⟨hwhich, hholders⟩
    refine ⟨hwhich.imp_left fun hcontains => ?_,
      (h.holders_iff hvalid hconsistent hconsistent' hb hblock).mpr hholders⟩
    obtain ⟨k, hk, hmask, hfirst⟩ := containsNet_iff.mp hcontains
    refine containsNet_iff.mpr ⟨k, (h.old k hk).resolve_right fun heq => ?_, hmask, hfirst⟩
    subst heq
    exact hblock hmask hfirst.symm
  · intro hpiece
    have hholders := (h.holders_iff hvalid hconsistent hconsistent' hb hblock).mp hpiece.2
    rcases hpiece.1 with hcontains | hsecond
    · obtain ⟨k, hk, hmask, hfirst⟩ := containsNet_iff.mp hcontains
      rcases h.new k hk with hk | rfl | rfl
      · exact ⟨.inl (containsNet_iff.mpr ⟨k, hk, hmask, hfirst⟩), hholders⟩
      · rw [IpAddress.getFirstAddress_firstHalf h.bits] at hfirst
        have hhalf : c.firstHalf.networkMask = c.networkMask + 1 := rfl
        exact absurd hfirst.symm (hne.resolve_right (by omega))
      · -- The second half was a piece of the net before.
        have hsecond := hc.secondHalf h.bits
        have hne' : c.secondHalf.networkMask = c.networkMask → c.secondHalf.getFirstAddress ≠ c.getFirstAddress :=
          fun _ => (lt_secondHalf h.bits).ne'
        have hpiece' : Piece l' c.secondHalf t := hpiece.congr hb hsecond hmask hfirst.symm
        have hold : Piece l c.secondHalf t :=
          ⟨.inr (hc.isSecondHalf h.bits), (h.holders_iff hvalid hconsistent hconsistent' hsecond hne').mp hpiece'.2⟩
        exact hold.congr hsecond hb hmask.symm hfirst
    · exact ⟨.inr hsecond, hholders⟩

include h hvalid hconsistent hconsistent' in
theorem enters_iff_of_ne (hb : b.Valid v)
    (hne : b.getFirstAddress ≠ c.getFirstAddress ∨ b.networkMask < c.networkMask) :
    Enters l b t ↔ Enters l' b t := by
  have hne' : ∀ m ≤ b.networkMask, (b.around m).getFirstAddress = b.getFirstAddress →
      (b.around m).getFirstAddress ≠ c.getFirstAddress ∨ (b.around m).networkMask < c.networkMask :=
    fun m hm hbase => hne.imp (fun hfirst => hbase ▸ hfirst) hm.trans_lt
  constructor
  · refine fun henters => henters.of (h.resolves_iff hvalid hconsistent hconsistent').mpr fun m hm hbase hpiece => ?_
    exact ⟨m, hm, hbase,
      (h.piece_iff hvalid hconsistent hconsistent' (hb.around hm) (hne' m hm hbase)).mp hpiece⟩
  · refine fun henters => henters.of (h.resolves_iff hvalid hconsistent hconsistent').mp fun m hm hbase hpiece => ?_
    exact ⟨m, hm, hbase,
      (h.piece_iff hvalid hconsistent hconsistent' (hb.around hm) (hne' m hm hbase)).mpr hpiece⟩

include h hvalid hconsistent hconsistent' hleast in
/-- The block of the net is no piece any more, unless an equal net is left. -/
theorem eq_of_piece (hb : b.Valid v) (hmask : b.networkMask = c.networkMask)
    (hfirst : b.getFirstAddress = c.getFirstAddress) (hpiece : Piece l' b t) : t = c.included := by
  have hequal : ∀ k ∈ l', k.networkMask = b.networkMask → k.getFirstAddress = b.getFirstAddress →
      k.included = c.included := by
    intro k hk hkmask hkfirst
    rcases h.new k hk with hk | rfl | rfl
    · exact hconsistent k hk c h.mem c.getFirstAddress (hkfirst.trans hfirst ▸ IpAddress.covers_getFirstAddress)
        IpAddress.covers_getFirstAddress (hkmask.trans hmask)
    · rfl
    · rfl
  obtain ⟨hcontains | hsecond, hholders⟩ := hpiece
  · obtain ⟨k, hk, hkmask, hkfirst⟩ := containsNet_iff.mp hcontains
    rw [holders_eq_of_mem hconsistent' hk hkmask hkfirst hholders]
    exact hequal k hk hkmask.symm hkfirst
  · obtain ⟨k, hk, rfl⟩ := hholders
    have hkleast := h.least hleast k hk.mem
    have hkfirst : k.getFirstAddress = b.getFirstAddress := by
      have := hk.covers.1.1
      omega
    have hkmask := hsecond.le hb (h.valid hvalid k hk.mem) hkfirst
    exact hequal k hk.mem (le_antisymm hk.covers.2 hkmask) hkfirst

include h hvalid hconsistent hconsistent' hleast in
/-- Where the net that is split starts, it does not have the type that goes on. -/
theorem enters_iff_of_other (hb : b.Valid v) (hother : ∀ t, nets.Resolves l c.getFirstAddress t → t ≠ c.included) :
    Enters l b t ↔ Enters l' b t := by
  by_cases hfirst : b.getFirstAddress = c.getFirstAddress
  · have hc := hvalid c h.mem
    have hresolves := @h.resolves_iff v t l l' c b.getFirstAddress hvalid hconsistent hconsistent'
    constructor
    · intro henters
      have ht : t ≠ c.included := hother t (hfirst ▸ henters.1)
      refine henters.of hresolves.mpr fun m hm hbase hpiece => ⟨m, hm, hbase, ?_⟩
      have hblock : m = c.networkMask → (b.around m).getFirstAddress ≠ c.getFirstAddress := fun hmask heq =>
        ht (holders_eq_of_mem hconsistent h.mem hmask heq.symm hpiece.2)
      refine ⟨hpiece.1.imp_left fun hcontains => ?_,
        (h.holders_iff hvalid hconsistent hconsistent' (hb.around hm) hblock).mpr hpiece.2⟩
      obtain ⟨k, hk, hmask, hkfirst⟩ := containsNet_iff.mp hcontains
      refine containsNet_iff.mpr ⟨k, (h.old k hk).resolve_right fun heq => ?_, hmask, hkfirst⟩
      subst heq
      exact hblock hmask hkfirst.symm
    · intro henters
      have ht : t ≠ c.included := hother t (hfirst ▸ hresolves.mp henters.1)
      refine henters.of hresolves.mp fun m hm hbase hpiece => ⟨m, hm, hbase, ?_⟩
      have hblock : m = c.networkMask → (b.around m).getFirstAddress ≠ c.getFirstAddress := fun hmask heq =>
        ht (h.eq_of_piece hvalid hconsistent hconsistent' hleast (hb.around hm) hmask heq hpiece)
      refine ⟨hpiece.1.imp_left fun hcontains => ?_,
        (h.holders_iff hvalid hconsistent hconsistent' (hb.around hm) hblock).mp hpiece.2⟩
      obtain ⟨k, hk, hmask, hkfirst⟩ := containsNet_iff.mp hcontains
      rcases h.new k hk with hk | rfl | rfl
      · exact containsNet_iff.mpr ⟨k, hk, hmask, hkfirst⟩
      · exact absurd (holders_eq_of_mem hconsistent' hk hmask hkfirst hpiece.2) ht
      · have := lt_secondHalf h.bits
        omega
  · exact h.enters_iff_of_ne hvalid hconsistent hconsistent' hb (.inl hfirst)

include h hvalid hconsistent hconsistent' in
/-- The net that is split goes on with its first half. -/
theorem enters_iff_of_own (hb : b.Valid v) (hfirstHalf : c.firstHalf ∈ l')
    (hown : ∀ t, nets.Resolves l c.getFirstAddress t → t = c.included)
    (hblock : b.networkMask = c.networkMask → b.getFirstAddress ≠ c.getFirstAddress) :
    Enters l b t ↔ Enters l' b t := by
  have hresolves := @h.resolves_iff v t l l' c b.getFirstAddress hvalid hconsistent hconsistent'
  by_cases hfirst : b.getFirstAddress = c.getFirstAddress
  · rcases lt_trichotomy b.networkMask c.networkMask with hlt | heq | hgt
    · exact h.enters_iff_of_ne hvalid hconsistent hconsistent' hb (.inr hlt)
    · exact absurd hfirst (hblock heq)
    · have hhalf : c.firstHalf.getFirstAddress = b.getFirstAddress :=
        (IpAddress.getFirstAddress_firstHalf h.bits).trans hfirst.symm
      constructor
      · intro henters
        obtain rfl := hown t (hfirst ▸ henters.1)
        change Enters l' b c.firstHalf.included
        exact .of_mem (h.valid hvalid) hb hfirstHalf hhalf hgt (hresolves.mpr henters.1)
      · intro henters
        have hold := hresolves.mp henters.1
        obtain rfl := hown t (hfirst ▸ hold)
        exact .of_mem hvalid hb h.mem hfirst.symm hgt.le hold
  · exact h.enters_iff_of_ne hvalid hconsistent hconsistent' hb (.inl hfirst)

include h hleast in
/-- Only smaller nets start there afterwards. -/
theorem not_enters (hstart : ∀ n ∈ l', n.getFirstAddress = c.getFirstAddress → c.networkMask < n.networkMask)
    (hmask : b.networkMask = c.networkMask) (hfirst : b.getFirstAddress = c.getFirstAddress) : ¬ Enters l' b t := by
  rintro ⟨-, m, hm, hbase, -, n, hn, -⟩
  have hx := hn.covers.1
  rw [hbase, hfirst] at hx
  have hlt := hstart n hn.mem (le_antisymm hx.1 (h.least hleast n hn.mem))
  have hle : n.networkMask ≤ m := hn.covers.2
  omega

include h hvalid hconsistent hconsistent' hleast in
theorem doubled_iff (henters : Enters l b t ↔ Enters l' b t) (hb : b.Valid v) : Doubled l b t ↔ Doubled l' b t := by
  have hc := hvalid c h.mem
  have hresolves : ∀ x t, nets.Resolves l' x t ↔ nets.Resolves l x t :=
    fun x t => h.resolves_iff hvalid hconsistent hconsistent'
  -- The second half of the block starts after the net that is split.
  have hsecond : b.networkMask < b.addressBits → nets.Resolves l b.getFirstAddress t →
      c.getFirstAddress < b.secondHalf.getFirstAddress :=
    fun hbits hfirst => (le_of_resolves hleast hfirst).trans_lt (lt_secondHalf hbits)
  constructor
  · intro hdoubled
    have hlt := hsecond hdoubled.bits hdoubled.enters.1
    refine hdoubled.of henters.mp (h.holders_iff hvalid hconsistent hconsistent' (hb.secondHalf hdoubled.bits)
      fun _ => hlt.ne').mpr (fun x _ => (hresolves x _).mpr) fun k hk hfirst _ _ => ?_
    refine (h.old k hk).resolve_right fun heq => ?_
    subst heq
    omega
  · intro hdoubled
    have hlt := hsecond hdoubled.bits ((hresolves _ _).mp hdoubled.enters.1)
    refine hdoubled.of henters.mpr (h.holders_iff hvalid hconsistent hconsistent' (hb.secondHalf hdoubled.bits)
      fun _ => hlt.ne').mp (fun x _ => (hresolves x _).mp) fun k hk hfirst hmask _ => ?_
    rcases h.new k hk with hk | rfl | rfl
    · exact hk
    · rw [IpAddress.getFirstAddress_firstHalf h.bits] at hfirst
      omega
    · have hle := hc.le_secondHalf h.bits (hb.secondHalf hdoubled.bits) hfirst.symm
      omega

include h hvalid hconsistent hconsistent' hleast in
theorem hidden (hk : k.Valid v) (hhidden : Hidden l k) (henters : ∀ m < k.networkMask,
      (k.around m).secondHalf.getFirstAddress = k.getFirstAddress → Enters l (k.around m) k.included →
        Enters l' (k.around m) k.included) : Hidden l' k := by
  have hc := hvalid c h.mem
  have hlt : c.getFirstAddress < k.getFirstAddress := by
    obtain ⟨m, hm, hbase, henter, -⟩ := hhidden.within
    have hbits : (k.around m).networkMask < (k.around m).addressBits := hm.trans_le hk.networkMask_le
    exact (le_of_resolves hleast henter.1).trans_lt (hbase ▸ lt_secondHalf hbits)
  refine hhidden.of henters (fun _ _ => (h.resolves_iff hvalid hconsistent hconsistent').mpr)
    (fun m hm hbase => (h.piece_iff hvalid hconsistent hconsistent' (hk.around hm.le) (.inl ?_)).mp)
    fun j hj hnew hbase _ => ?_
  · rw [hbase]
    exact hlt.ne'
  · -- A new second half is the largest net that starts there, and this net has a larger one beside it.
    rcases h.new j hj with hj | rfl | rfl
    · exact absurd hj hnew
    · rw [IpAddress.getFirstAddress_firstHalf h.bits] at hbase
      omega
    · obtain ⟨m, hm, hbase', -⟩ := hhidden.larger
      have hle := hc.le_secondHalf h.bits (hk.around hm.le) (hbase'.trans hbase.symm)
      simp only [IpAddress.around_networkMask] at hle
      omega

include h hvalid hconsistent hconsistent' hleast in
theorem hidden_of (hk : k.Valid v) (hhidden : Hidden l' k) (henters : ∀ m < k.networkMask,
      (k.around m).secondHalf.getFirstAddress = k.getFirstAddress → Enters l' (k.around m) k.included →
        Enters l (k.around m) k.included) : Hidden l k := by
  have hlt : c.getFirstAddress < k.getFirstAddress := by
    obtain ⟨m, hm, hbase, henter, -⟩ := hhidden.within
    have hbits : (k.around m).networkMask < (k.around m).addressBits := hm.trans_le hk.networkMask_le
    exact (le_of_resolves (h.least hleast) henter.1).trans_lt (hbase ▸ lt_secondHalf hbits)
  refine hhidden.of henters (fun _ _ => (h.resolves_iff hvalid hconsistent hconsistent').mp)
    (fun m hm hbase => (h.piece_iff hvalid hconsistent hconsistent' (hk.around hm.le) (.inl ?_)).mpr)
    fun j hj hnew hbase _ => ?_
  · rw [hbase]
    exact hlt.ne'
  · obtain rfl := (h.old j hj).resolve_left hnew
    omega

end

end Halves

end

end AllInSafe.Routes
