import AllInSafe.Routes.Lemmas.Nets

/-!
# What one iteration keeps

The nets that are done and those that are pending resolve every address as the set of the beginning does. Every
iteration keeps this, unless it clashes.
-/

namespace AllInSafe.Routes
open AllInSafe.Library

/-- The iteration drops the next net although a larger net of the other type starts at the same address, or it puts
a second half beside an equal net of the other type. -/
def clashes (currentNet nextNet : IpAddress) (networks : List IpAddress) : Bool :=
  overlaps currentNet nextNet && !sameBase currentNet nextNet &&
    if currentNet.included = nextNet.included then
      networks.any fun n => n.getFirstAddress = nextNet.getFirstAddress && n.included != nextNet.included
    else
      currentNet.secondHalf.networkMask ≠ nextNet.networkMask &&
        networks.any fun n => currentNet.secondHalf.equals n && n.included != currentNet.included

def Generation.Clashes (s : Generation) : Option IpAddress → Bool
  | none => false
  | some nextNet =>
      match s.phase with
      | .start | .done => false
      | .loop currentNet => clashes currentNet nextNet (s.networks.erase nextNet)

theorem IpAddress.sameBase_iff {c n : IpAddress} : sameBase c n = true ↔
    c.getFirstAddress = n.getFirstAddress ∧ n.networkMask ≤ c.networkMask := by
  rw [sameBase, Bool.and_eq_true, decide_eq_true_eq, decide_eq_true_eq]

/-! ## The queue after a split -/

section

variable {networks : List IpAddress} {currentNet nextNet : IpAddress}

theorem mem_addUnlessContained {ip n : IpAddress} :
    n ∈ addUnlessContained networks ip ↔ n ∈ networks ∨ n = ip ∧ containsNet networks ip = false := by
  rw [addUnlessContained]
  cases containsNet networks ip <;> simp

theorem containsNet_iff {ip : IpAddress} : containsNet networks ip = true ↔
    ∃ n ∈ networks, ip.networkMask = n.networkMask ∧ n.getFirstAddress = ip.getFirstAddress := by
  simp [containsNet, IpAddress.equals_iff]

/-- The queue after the next net has been split. -/
def afterSplit (currentNet nextNet : IpAddress) (networks : List IpAddress) : List IpAddress :=
  if nextNet.firstHalf.getLastAddress = currentNet.getLastAddress then
    addUnlessContained networks nextNet.secondHalf
  else addUnlessContained (addUnlessContained networks nextNet.secondHalf) nextNet.firstHalf

theorem mem_afterSplit_of_mem {n : IpAddress} (hn : n ∈ networks) : n ∈ afterSplit currentNet nextNet networks := by
  rw [afterSplit]
  split <;> simp [mem_addUnlessContained, hn]

/-- A net that the split has added, and what was checked before. -/
theorem mem_afterSplit {n : IpAddress} (hn : n ∈ afterSplit currentNet nextNet networks) (hnew : n ∉ networks) :
    containsNet networks n = false ∧ (n = nextNet.secondHalf ∨
      n = nextNet.firstHalf ∧ nextNet.firstHalf.getLastAddress ≠ currentNet.getLastAddress) := by
  rw [afterSplit] at hn
  split at hn
  · obtain ⟨rfl, hcontains⟩ := (mem_addUnlessContained.mp hn).resolve_left hnew
    exact ⟨hcontains, .inl rfl⟩
  · rename_i hlast
    rcases mem_addUnlessContained.mp hn with hn | ⟨rfl, hcontains⟩
    · obtain ⟨rfl, hcontains⟩ := (mem_addUnlessContained.mp hn).resolve_left hnew
      exact ⟨hcontains, .inl rfl⟩
    · refine ⟨?_, .inr ⟨rfl, hlast⟩⟩
      rw [← Bool.not_eq_true, containsNet_iff] at hcontains ⊢
      exact fun ⟨k, hk, hkey⟩ => hcontains ⟨k, mem_addUnlessContained.mpr (.inl hk), hkey⟩

/-- A half is in the queue, or an equal net is, or it is the current net. -/
theorem half_afterSplit (hbits : nextNet.networkMask < nextNet.addressBits) {k : IpAddress}
    (hk : k = nextNet.firstHalf ∨ k = nextNet.secondHalf) :
    k ∈ afterSplit currentNet nextNet networks ∨ containsNet networks k = true ∨
      k = nextNet.firstHalf ∧ nextNet.firstHalf.getLastAddress = currentNet.getLastAddress := by
  have hsecond : nextNet.secondHalf ∈ addUnlessContained networks nextNet.secondHalf ∨
      containsNet networks nextNet.secondHalf = true := by
    cases hcontains : containsNet networks nextNet.secondHalf with
    | true => exact .inr rfl
    | false => exact .inl (mem_addUnlessContained.mpr (.inr ⟨rfl, hcontains⟩))
  rw [afterSplit]
  split
  · rename_i hlast
    rcases hk with rfl | rfl
    · exact .inr (.inr ⟨rfl, hlast⟩)
    · exact hsecond.imp_right .inl
  · rcases hk with rfl | rfl
    · cases hcontains : containsNet (addUnlessContained networks nextNet.secondHalf) nextNet.firstHalf with
      | false => exact .inl (mem_addUnlessContained.mpr (.inr ⟨rfl, hcontains⟩))
      | true =>
          obtain ⟨m, hm, hmask, hfirst⟩ := containsNet_iff.mp hcontains
          rcases mem_addUnlessContained.mp hm with hm | ⟨rfl, -⟩
          · exact .inr (.inl (containsNet_iff.mpr ⟨m, hm, hmask, hfirst⟩))
          · have hmiddle := IpAddress.getLastAddress_firstHalf hbits
            have hle := IpAddress.getFirstAddress_le_getLastAddress (n := nextNet.firstHalf)
            omega
    · exact hsecond.imp (fun hm => mem_addUnlessContained.mpr (.inl hm)) .inl

/-- The queue after the current net has been split. -/
def withSecondHalf (currentNet nextNet : IpAddress) (networks : List IpAddress) : List IpAddress :=
  if currentNet.secondHalf.networkMask = nextNet.networkMask then networks ++ [nextNet]
  else networks ++ [currentNet.secondHalf] ++ [nextNet]

theorem mem_withSecondHalf {n : IpAddress} : n ∈ withSecondHalf currentNet nextNet networks ↔
    n = nextNet ∨ n ∈ networks ∨
      n = currentNet.secondHalf ∧ currentNet.secondHalf.networkMask ≠ nextNet.networkMask := by
  rw [withSecondHalf]
  split <;> rename_i hmask <;> simp [hmask, or_comm, or_left_comm]

end

/-- The nets with one of them replaced by its halves, each where no equal net is there already. -/
structure Halves (pending pending' : List IpAddress) (c : IpAddress) : Prop where
  mem : c ∈ pending
  bits : c.networkMask < c.addressBits
  old : ∀ n ∈ pending, n ∈ pending' ∨ n = c
  new : ∀ n ∈ pending', n ∈ pending ∨ n = c.firstHalf ∨ n = c.secondHalf
  half : ∀ k, k = c.firstHalf ∨ k = c.secondHalf → k ∈ pending' ∨
    ∃ n ∈ pending, n.networkMask = k.networkMask ∧ n.getFirstAddress = k.getFirstAddress

/-! ## What is kept -/

/-- The nets of `l` are resolved by those of `ipsDone`, which lie before the pending ones, and by these. -/
structure Keeps (v : Bool) (l ipsDone pending : List IpAddress) : Prop where
  valid : ∀ n ∈ pending, n.Valid v
  consistent : nets.Consistent pending
  ordered : ipsDone.Pairwise fun m n => m.getLastAddress < n.getFirstAddress
  before : ∀ d ∈ ipsDone, ∀ n ∈ pending, d.getLastAddress < n.getFirstAddress
  resolves : ∀ x b, nets.Resolves ipsDone x b ∨ nets.Resolves pending x b ↔ nets.Resolves l x b

namespace Keeps

variable {v : Bool} {l ipsDone pending pending' networks : List IpAddress} {currentNet nextNet : IpAddress}

theorem congr (h : Keeps v l ipsDone pending) (hmem : ∀ n, n ∈ pending' ↔ n ∈ pending) :
    Keeps v l ipsDone pending' where
  valid n hn := h.valid n ((hmem n).mp hn)
  consistent m hm n hn := h.consistent m ((hmem m).mp hm) n ((hmem n).mp hn)
  ordered := h.ordered
  before d hd n hn := h.before d hd n ((hmem n).mp hn)
  resolves x b := by rw [Entries.Resolves.congr fun n _ => hmem n]; exact h.resolves x b

/-- Other pending nets, within the old ones, that resolve what these resolve. -/
theorem replace (h : Keeps v l ipsDone pending) (hvalid : ∀ n ∈ pending', n.Valid v)
    (hconsistent : nets.Consistent pending')
    (hwithin : ∀ n ∈ pending', ∃ m ∈ pending,
      m.getFirstAddress ≤ n.getFirstAddress ∧ n.getLastAddress ≤ m.getLastAddress)
    (hforward : ∀ x n, nets.Best pending x n → nets.Resolves pending' x n.included) :
    Keeps v l ipsDone pending' where
  valid := hvalid
  consistent := hconsistent
  ordered := h.ordered
  before d hd n hn := by
    obtain ⟨m, hm, hle, -⟩ := hwithin n hn
    exact (h.before d hd m hm).trans_le hle
  resolves x b := by
    rw [← h.resolves x b, Entries.resolves_iff_of_forward hconsistent (hforward x)]
    intro n hn hx
    obtain ⟨m, hm, hfirst, hlast⟩ := hwithin n hn
    exact ⟨m, hm, hfirst.trans hx.1, hx.2.trans hlast⟩

/-- The current net does not overlap what is still to come: it is done. -/
theorem finish (h : Keeps v l ipsDone (currentNet :: networks))
    (hbefore : ∀ n ∈ networks, currentNet.getLastAddress < n.getFirstAddress) :
    Keeps v l (ipsDone ++ [currentNet]) networks where
  valid n hn := h.valid n (List.mem_cons_of_mem _ hn)
  consistent m hm n hn := h.consistent m (List.mem_cons_of_mem _ hm) n (List.mem_cons_of_mem _ hn)
  ordered := List.pairwise_append.mpr ⟨h.ordered, List.pairwise_singleton _ _, fun d hd n hn => by
    rw [List.mem_singleton.mp hn]
    exact h.before d hd currentNet List.mem_cons_self⟩
  before d hd n hn := by
    rcases List.mem_append.mp hd with hd | hd
    · exact h.before d hd n (List.mem_cons_of_mem _ hn)
    · rw [List.mem_singleton.mp hd]
      exact hbefore n hn
  resolves x b := by
    have hdone : nets.Resolves (ipsDone ++ [currentNet]) x b ↔
        nets.Resolves ipsDone x b ∨ nets.Resolves [currentNet] x b :=
      Entries.resolves_append fun d hd n hn hdx hnx => by
        have hlt := h.before d hd currentNet List.mem_cons_self
        rw [List.mem_singleton.mp hn] at hnx
        exact absurd (hdx.2.trans_lt hlt) (not_lt_of_ge hnx.1)
    have hpending : nets.Resolves ([currentNet] ++ networks) x b ↔
        nets.Resolves [currentNet] x b ∨ nets.Resolves networks x b :=
      Entries.resolves_append fun c hc n hn hcx hnx => by
        have hlt := hbefore n hn
        rw [List.mem_singleton.mp hc] at hcx
        exact absurd (hcx.2.trans_lt hlt) (not_lt_of_ge hnx.1)
    rw [← h.resolves x b, hdone, or_assoc, ← hpending]
    rfl

/-! ## Nets that are dropped -/

theorem validHead (h : Keeps v l ipsDone (currentNet :: nextNet :: networks)) :
    currentNet.Valid v ∧ nextNet.Valid v :=
  ⟨h.valid _ List.mem_cons_self, h.valid _ (List.mem_cons_of_mem _ List.mem_cons_self)⟩

/-- The current net starts where the next one starts and is not larger: the next one covers it. -/
theorem sameBase_covers (h : Keeps v l ipsDone (currentNet :: nextNet :: networks))
    (hbase : sameBase currentNet nextNet = true) {x : Nat} (hx : currentNet.Covers x) : nextNet.Covers x := by
  rw [IpAddress.sameBase_iff] at hbase
  refine h.validHead.2.covers_of_le h.validHead.1 ?_ IpAddress.covers_getFirstAddress hbase.2 hx
  rw [hbase.1]
  exact IpAddress.covers_getFirstAddress

/-- A net of the queue that covers an address of the next net and is not smaller starts at the same address. -/
theorem first_eq_of_covers (h : Keeps v l ipsDone (currentNet :: nextNet :: networks))
    (hnext : ∀ n ∈ networks, nextNet.compareTo n ≠ .gt) {n : IpAddress} (hn : n ∈ networks) {x : Nat}
    (hx : nextNet.Covers x) (hnx : n.Covers x) (hle : n.networkMask ≤ nextNet.networkMask) :
    n.getFirstAddress = nextNet.getFirstAddress := by
  have hvalid := h.valid n (List.mem_cons_of_mem _ (List.mem_cons_of_mem _ hn))
  have hfirst := (hvalid.nested h.validHead.2 hnx hx hle).1
  rcases IpAddress.compareTo_ne_gt_iff.mp (hnext n hn) with hlt | ⟨heq, -⟩
  · omega
  · exact heq.symm

theorem forgetCurrent (h : Keeps v l ipsDone (currentNet :: nextNet :: networks))
    (hnext : ∀ n ∈ networks, nextNet.compareTo n ≠ .gt) (hbase : sameBase currentNet nextNet = true)
    (hincluded : currentNet.included = nextNet.included) : Keeps v l ipsDone (nextNet :: networks) := by
  have hsub : ∀ n ∈ nextNet :: networks, n ∈ currentNet :: nextNet :: networks :=
    fun n hn => List.mem_cons_of_mem _ hn
  refine h.replace (fun n hn => h.valid n (hsub n hn))
    (fun m hm n hn => h.consistent m (hsub m hm) n (hsub n hn))
    (fun n hn => ⟨n, hsub n hn, le_rfl, le_rfl⟩) fun x n hn => ?_
  rcases List.mem_cons.mp hn.mem with rfl | hmem
  · -- Between the current net and the next one there is no other net.
    have hx : nextNet.Covers x := h.sameBase_covers hbase hn.covers
    refine ⟨nextNet, ⟨List.mem_cons_self, hx, List.forall_mem_cons.mpr ⟨fun _ => le_rfl, fun k hk hkx => ?_⟩⟩,
      hincluded.symm⟩
    have hkmask := hn.longest k (hsub k (List.mem_cons_of_mem _ hk)) hkx
    have hkvalid := h.valid k (hsub k (List.mem_cons_of_mem _ hk))
    have hkfirst := (hkvalid.nested h.validHead.1 hkx hn.covers hkmask).1
    rw [IpAddress.sameBase_iff] at hbase
    rcases IpAddress.compareTo_ne_gt_iff.mp (hnext k hk) with hlt | ⟨-, hle⟩
    · omega
    · exact hle
  · exact ⟨n, hn.mono hmem fun m hm _ => hsub m hm, rfl⟩

theorem dropNext (h : Keeps v l ipsDone (currentNet :: nextNet :: networks))
    (hnext : ∀ n ∈ networks, nextNet.compareTo n ≠ .gt)
    (hcovers : ∀ x, nextNet.Covers x → currentNet.Covers x) (hincluded : currentNet.included = nextNet.included)
    (hsame : ∀ n ∈ networks, n.getFirstAddress = nextNet.getFirstAddress → n.included = nextNet.included) :
    Keeps v l ipsDone (currentNet :: networks) := by
  have hsub : ∀ n ∈ currentNet :: networks, n ∈ currentNet :: nextNet :: networks := by
    intro n hn
    rcases List.mem_cons.mp hn with rfl | hn
    · exact List.mem_cons_self
    · exact List.mem_cons_of_mem _ (List.mem_cons_of_mem _ hn)
  refine h.replace (fun n hn => h.valid n (hsub n hn))
    (fun m hm n hn => h.consistent m (hsub m hm) n (hsub n hn))
    (fun n hn => ⟨n, hsub n hn, le_rfl, le_rfl⟩) fun x n hn => ?_
  by_cases hmem : n ∈ currentNet :: networks
  · exact ⟨n, hn.mono hmem fun m hm _ => hsub m hm, rfl⟩
  · have heq : n = nextNet := by
      rcases List.mem_cons.mp hn.mem with rfl | hrest
      · exact absurd List.mem_cons_self hmem
      · exact (List.mem_cons.mp hrest).resolve_right fun hr => hmem (List.mem_cons_of_mem _ hr)
    subst heq
    -- The next longest net is the current one, or starts where the dropped one starts.
    obtain ⟨m, hm⟩ := Entries.Best.exists (E := nets) (l := currentNet :: networks) List.mem_cons_self
      (hcovers x hn.covers)
    refine ⟨m, hm, ?_⟩
    rcases List.mem_cons.mp hm.mem with rfl | hmrest
    · exact hincluded
    · exact hsame m hmrest (h.first_eq_of_covers hnext hmrest hn.covers hm.covers
        (hn.longest m (hsub m hm.mem) hm.covers))

/-- The next net overlaps the current one and is not larger with the same base: it lies in the current one. -/
theorem next_within (h : Keeps v l ipsDone (currentNet :: nextNet :: networks))
    (hcurrent : currentNet.compareTo nextNet ≠ .gt) (hoverlap : overlaps currentNet nextNet = true)
    (hbase : sameBase currentNet nextNet = false) :
    currentNet.networkMask < nextNet.networkMask ∧ currentNet.getFirstAddress < nextNet.getFirstAddress ∧
      nextNet.getLastAddress ≤ currentNet.getLastAddress := by
  obtain ⟨hcvalid, hnvalid⟩ := h.validHead
  rw [overlaps, Bool.not_eq_true', decide_eq_false_iff_not, Nat.not_lt] at hoverlap
  have hfirst : currentNet.getFirstAddress < nextNet.getFirstAddress := by
    rcases IpAddress.compareTo_ne_gt_iff.mp hcurrent with hlt | ⟨heq, hmask⟩
    · exact hlt
    · rw [sameBase, heq, decide_eq_true rfl, decide_eq_true hmask] at hbase
      cases hbase
  have hx : currentNet.Covers nextNet.getFirstAddress := ⟨hfirst.le, hoverlap⟩
  have hmask : currentNet.networkMask < nextNet.networkMask := by
    refine lt_of_not_ge fun hle => ?_
    have := (hnvalid.nested hcvalid IpAddress.covers_getFirstAddress hx hle).1
    omega
  exact ⟨hmask, hfirst, (hcvalid.nested hnvalid hx IpAddress.covers_getFirstAddress hmask.le).2⟩

/-! ## Nets that are split -/

/-- A net is replaced by its halves. -/
theorem replaceByHalves {c : IpAddress} (h : Keeps v l ipsDone pending) (hsplit : Halves pending pending' c)
    (hconsistent : nets.Consistent pending') : Keeps v l ipsDone pending' := by
  obtain ⟨hc, hbits, hold, hnew, hhalf⟩ := hsplit
  have hcvalid := h.valid c hc
  have hhalves : ∀ k, k = c.firstHalf ∨ k = c.secondHalf → ∀ x, k.Covers x → c.Covers x := by
    rintro k (rfl | rfl) x hx
    · exact (IpAddress.covers_halves hbits).mpr (.inl hx)
    · exact (IpAddress.covers_halves hbits).mpr (.inr hx)
  have hmask : ∀ k, k = c.firstHalf ∨ k = c.secondHalf → k.networkMask = c.networkMask + 1 := by
    rintro k (rfl | rfl) <;> rfl
  refine h.replace (fun n hn => ?_) hconsistent (fun n hn => ?_) fun x n hn => ?_
  · rcases hnew n hn with hmem | rfl | rfl
    · exact h.valid n hmem
    · exact hcvalid.firstHalf hbits
    · exact hcvalid.secondHalf hbits
  · have hmiddle := IpAddress.getLastAddress_firstHalf hbits
    have hlast := IpAddress.getLastAddress_secondHalf hbits
    have hfirst := IpAddress.getFirstAddress_firstHalf hbits
    have hle := IpAddress.getFirstAddress_le_getLastAddress (n := c.firstHalf)
    have hle' := IpAddress.getFirstAddress_le_getLastAddress (n := c.secondHalf)
    rcases hnew n hn with hmem | rfl | rfl
    · exact ⟨n, hmem, le_rfl, le_rfl⟩
    · exact ⟨c, hc, by omega, by omega⟩
    · exact ⟨c, hc, by omega, by omega⟩
  · by_cases hcx : c.Covers x ∧ n.networkMask ≤ c.networkMask
    · -- The split net itself is the longest one: now its half is.
      have hval : c.included = n.included := Entries.Best.value_eq h.consistent hn hc hcx.1 hcx.2
      have hshort : ∀ m ∈ pending, m.Covers x → m.networkMask ≤ c.networkMask :=
        fun m hm hmx => (hn.longest m hm hmx).trans hcx.2
      obtain ⟨k, hk, hkx⟩ : ∃ k, (k = c.firstHalf ∨ k = c.secondHalf) ∧ k.Covers x := by
        rcases (IpAddress.covers_halves hbits).mp hcx.1 with hx | hx
        · exact ⟨_, .inl rfl, hx⟩
        · exact ⟨_, .inr rfl, hx⟩
      have hkval : k.included = c.included := by rcases hk with rfl | rfl <;> rfl
      have hkvalid : k.Valid v := by
        rcases hk with rfl | rfl
        · exact hcvalid.firstHalf hbits
        · exact hcvalid.secondHalf hbits
      rcases hhalf k hk with hkmem | ⟨m, hm, hmk, hmfirst⟩
      · refine ⟨k, ⟨hkmem, hkx, fun m hm hmx => ?_⟩, hkval.trans hval⟩
        rcases hnew m hm with hmem | hmhalf
        · have hle := hshort m hmem hmx
          have := hmask k hk
          change m.networkMask ≤ k.networkMask
          omega
        · exact (hmask m hmhalf).trans (hmask k hk).symm |>.le
      · have hle := hshort m hm (hkvalid.covers_of_equals (h.valid m hm) hmk.symm hmfirst.symm hkx)
        have := hmask k hk
        omega
    · -- Some other net is longer, and so not shorter than the halves.
      have hne : n ≠ c := by
        rintro rfl
        exact hcx ⟨hn.covers, le_rfl⟩
      refine ⟨n, ⟨(hold n hn.mem).resolve_right hne, hn.covers, fun m hm hmx => ?_⟩, rfl⟩
      rcases hnew m hm with hmem | hmhalf
      · exact hn.longest m hmem hmx
      · have hlt : c.networkMask < n.networkMask :=
          lt_of_not_ge fun hle => hcx ⟨hhalves m hmhalf x hmx, hle⟩
        have := hmask m hmhalf
        change m.networkMask ≤ n.networkMask
        omega

/-- Two halves of one net agree, and so do a half and an equal net that is left out for it. -/
theorem consistent_halves {c : IpAddress} (h : Keeps v l ipsDone pending) (hsplit : Halves pending pending' c)
    (hagree : ∀ k, k = c.firstHalf ∨ k = c.secondHalf → k ∈ pending' → ∀ n ∈ pending, n ∈ pending' →
      n.networkMask = k.networkMask → n.getFirstAddress = k.getFirstAddress → n.included = k.included) :
    nets.Consistent pending' := by
  obtain ⟨hc, hbits, -, hnew, -⟩ := hsplit
  have hcvalid := h.valid c hc
  have hhalf : ∀ k, k = c.firstHalf ∨ k = c.secondHalf → k.Valid v ∧ k.included = c.included := by
    rintro k (rfl | rfl)
    · exact ⟨hcvalid.firstHalf hbits, rfl⟩
    · exact ⟨hcvalid.secondHalf hbits, rfl⟩
  intro m hm n hn x hmx hnx hmask
  rcases hnew m hm with hmold | hmhalf
  · rcases hnew n hn with hnold | hnhalf
    · exact h.consistent m hmold n hnold x hmx hnx hmask
    · exact hagree n hnhalf hn m hmold hm hmask
        ((h.valid m hmold).getFirstAddress_eq_of_covers (hhalf n hnhalf).1 hmx hnx hmask)
  · rcases hnew n hn with hnold | hnhalf
    · exact (hagree m hmhalf hm n hnold hn hmask.symm
        ((h.valid n hnold).getFirstAddress_eq_of_covers (hhalf m hmhalf).1 hnx hmx hmask.symm)).symm
    · exact (hhalf m hmhalf).2.trans (hhalf n hnhalf).2.symm

/-- The next net is larger than the current one, and it is replaced by its halves. -/
theorem halves_next (h : Keeps v l ipsDone (currentNet :: nextNet :: networks))
    (hbase : sameBase currentNet nextNet = true) (hincluded : currentNet.included ≠ nextNet.included) :
    nextNet.networkMask < currentNet.networkMask ∧
      Halves (currentNet :: nextNet :: networks) (currentNet :: afterSplit currentNet nextNet networks) nextNet := by
  have hcovers := h.sameBase_covers hbase IpAddress.covers_getFirstAddress
  obtain ⟨hcvalid, hnvalid⟩ := h.validHead
  rw [IpAddress.sameBase_iff] at hbase
  obtain ⟨hfirst, hmask⟩ := hbase
  have hlt : nextNet.networkMask < currentNet.networkMask := by
    refine lt_of_le_of_ne hmask fun heq => hincluded ?_
    exact (h.consistent nextNet (by simp) currentNet (by simp) _ hcovers IpAddress.covers_getFirstAddress heq).symm
  have hbits : nextNet.networkMask < nextNet.addressBits := by
    have hle := hcvalid.networkMask_le
    rw [IpAddress.addressBits, hcvalid.family] at hle
    rw [IpAddress.addressBits, hnvalid.family]
    omega
  refine ⟨hlt, by simp, hbits, fun n hn => ?_, fun n hn => ?_, fun k hk => ?_⟩
  · rcases List.mem_cons.mp hn with rfl | hn
    · exact .inl (by simp)
    · rcases List.mem_cons.mp hn with rfl | hn
      · exact .inr rfl
      · exact .inl (List.mem_cons_of_mem _ (mem_afterSplit_of_mem hn))
  · rcases List.mem_cons.mp hn with rfl | hn
    · exact .inl (by simp)
    · by_cases hold : n ∈ networks
      · exact .inl (by simp [hold])
      · exact .inr ((mem_afterSplit hn hold).2.symm.imp_left And.left)
  · rcases half_afterSplit hbits hk with hmem | hcontains | ⟨rfl, hlast⟩
    · exact .inl (List.mem_cons_of_mem _ hmem)
    · obtain ⟨n, hn, hnmask, hnfirst⟩ := containsNet_iff.mp hcontains
      exact .inr ⟨n, by simp [hn], hnmask.symm, hnfirst⟩
    · have hkfirst := (IpAddress.getFirstAddress_firstHalf hbits).trans hfirst.symm
      have hkmask := (hnvalid.firstHalf hbits).networkMask_eq hcvalid hkfirst hlast
      exact .inr ⟨currentNet, by simp, hkmask.symm, hkfirst.symm⟩

theorem splitNext (h : Keeps v l ipsDone (currentNet :: nextNet :: networks))
    (hbase : sameBase currentNet nextNet = true) (hincluded : currentNet.included ≠ nextNet.included) :
    nextNet.networkMask < currentNet.networkMask ∧ nextNet.networkMask < nextNet.addressBits ∧
      Keeps v l ipsDone (currentNet :: afterSplit currentNet nextNet networks) := by
  obtain ⟨hlt, hsplit⟩ := h.halves_next hbase hincluded
  obtain ⟨hcvalid, hnvalid⟩ := h.validHead
  have hbits := hsplit.bits
  have hfirst := (IpAddress.sameBase_iff.mp hbase).1
  have hmiddle := IpAddress.getLastAddress_firstHalf hbits
  have hfirsthalf := IpAddress.getFirstAddress_firstHalf hbits
  have hle := IpAddress.getFirstAddress_le_getLastAddress (n := nextNet.firstHalf)
  refine ⟨hlt, hbits, h.replaceByHalves hsplit
    (h.consistent_halves hsplit fun k hk hkmem n hn hnmem hkmask hkfirst => ?_)⟩
  by_cases hkold : k ∈ currentNet :: nextNet :: networks
  · have hkx : k.Covers n.getFirstAddress := by rw [hkfirst]; exact IpAddress.covers_getFirstAddress
    exact h.consistent n hn k hkold _ IpAddress.covers_getFirstAddress hkx hkmask
  · -- A half that was added has no equal net in the queue.
    have hkafter : k ∈ afterSplit currentNet nextNet networks :=
      (List.mem_cons.mp hkmem).resolve_left fun he => hkold (by simp [he])
    obtain ⟨hcontains, hwhich⟩ := mem_afterSplit hkafter fun hm => hkold (by simp [hm])
    rcases List.mem_cons.mp hn with rfl | hn
    · rcases hwhich with rfl | ⟨rfl, hlast⟩
      · omega
      · exact absurd ((hnvalid.firstHalf hbits).getLastAddress_eq_of_equals hcvalid hkfirst.symm hkmask.symm) hlast
    · rcases List.mem_cons.mp hn with rfl | hn
      · have hkmask' : k.networkMask = n.networkMask + 1 := by rcases hk with rfl | rfl <;> rfl
        omega
      · rw [← Bool.not_eq_true, containsNet_iff] at hcontains
        exact absurd ⟨n, hn, hkmask.symm, hkfirst⟩ hcontains

/-- The next net is the second half of the current one as soon as it is of the same size. -/
theorem next_eq_secondHalf (h : Keeps v l ipsDone (currentNet :: nextNet :: networks))
    (hbits : currentNet.networkMask < currentNet.addressBits)
    (hfirst : currentNet.getFirstAddress < nextNet.getFirstAddress)
    (hlast : nextNet.getLastAddress ≤ currentNet.getLastAddress)
    (hmask : currentNet.secondHalf.networkMask = nextNet.networkMask) :
    currentNet.secondHalf.getFirstAddress = nextNet.getFirstAddress := by
  obtain ⟨hcvalid, hnvalid⟩ := h.validHead
  have hle := IpAddress.getFirstAddress_le_getLastAddress (n := nextNet)
  rcases (IpAddress.covers_halves hbits).mp ⟨hfirst.le, hle.trans hlast⟩ with hx | hx
  · have heq := (hcvalid.firstHalf hbits).getFirstAddress_eq_of_covers hnvalid hx IpAddress.covers_getFirstAddress hmask
    rw [IpAddress.getFirstAddress_firstHalf hbits] at heq
    omega
  · exact (hcvalid.secondHalf hbits).getFirstAddress_eq_of_covers hnvalid hx IpAddress.covers_getFirstAddress hmask

/-- The next net lies in the current one, which is replaced by its halves. -/
theorem halves_current (h : Keeps v l ipsDone (currentNet :: nextNet :: networks))
    (hfirst : currentNet.getFirstAddress < nextNet.getFirstAddress)
    (hlast : nextNet.getLastAddress ≤ currentNet.getLastAddress)
    (hbits : currentNet.networkMask < currentNet.addressBits) :
    Halves (currentNet :: nextNet :: networks) (currentNet.firstHalf :: withSecondHalf currentNet nextNet networks)
      currentNet := by
  refine ⟨List.mem_cons_self, hbits, fun n hn => ?_, fun n hn => ?_, fun k hk => ?_⟩
  · rcases List.mem_cons.mp hn with rfl | hn
    · exact .inr rfl
    · refine .inl (List.mem_cons_of_mem _ (mem_withSecondHalf.mpr ?_))
      exact (List.mem_cons.mp hn).imp_right .inl
  · rcases List.mem_cons.mp hn with rfl | hn
    · exact .inr (.inl rfl)
    · rcases mem_withSecondHalf.mp hn with rfl | hn | ⟨rfl, -⟩
      · exact .inl (by simp)
      · exact .inl (by simp [hn])
      · exact .inr (.inr rfl)
  · rcases hk with rfl | rfl
    · exact .inl List.mem_cons_self
    · by_cases hmask : currentNet.secondHalf.networkMask = nextNet.networkMask
      · exact .inr ⟨nextNet, by simp, hmask.symm, (h.next_eq_secondHalf hbits hfirst hlast hmask).symm⟩
      · exact .inl (List.mem_cons_of_mem _ (mem_withSecondHalf.mpr (.inr (.inr ⟨rfl, hmask⟩))))

theorem splitCurrent (h : Keeps v l ipsDone (currentNet :: nextNet :: networks))
    (hnext : ∀ n ∈ networks, nextNet.compareTo n ≠ .gt)
    (hfirst : currentNet.getFirstAddress < nextNet.getFirstAddress)
    (hlast : nextNet.getLastAddress ≤ currentNet.getLastAddress)
    (hbits : currentNet.networkMask < currentNet.addressBits)
    (hsame : currentNet.secondHalf.networkMask ≠ nextNet.networkMask → ∀ n ∈ networks,
      currentNet.secondHalf.equals n = true → n.included = currentNet.included) :
    Keeps v l ipsDone (currentNet.firstHalf :: withSecondHalf currentNet nextNet networks) := by
  have hfirsthalf := IpAddress.getFirstAddress_firstHalf hbits
  have hafter : ∀ n ∈ nextNet :: networks, currentNet.getFirstAddress < n.getFirstAddress := by
    refine List.forall_mem_cons.mpr ⟨hfirst, fun n hn => ?_⟩
    rcases IpAddress.compareTo_ne_gt_iff.mp (hnext n hn) with hlt | ⟨heq, -⟩ <;> omega
  have hsplit := h.halves_current hfirst hlast hbits
  refine h.replaceByHalves hsplit (h.consistent_halves hsplit fun k hk hkmem n hn hnmem hkmask hkfirst => ?_)
  by_cases hkold : k ∈ currentNet :: nextNet :: networks
  · have hkx : k.Covers n.getFirstAddress := by rw [hkfirst]; exact IpAddress.covers_getFirstAddress
    exact h.consistent n hn k hkold _ IpAddress.covers_getFirstAddress hkx hkmask
  · have hkmask' : k.networkMask = currentNet.networkMask + 1 := by rcases hk with rfl | rfl <;> rfl
    rcases List.mem_cons.mp hn with rfl | hn
    · omega
    · have hlt := hafter n hn
      rcases hk with rfl | rfl
      · omega
      · have hne : currentNet.secondHalf ≠ currentNet.firstHalf := fun he => by
          rw [he] at hkfirst
          omega
        rcases mem_withSecondHalf.mp ((List.mem_cons.mp hkmem).resolve_left hne) with he | hm | ⟨-, hmask⟩
        · exact absurd (by simp [he]) hkold
        · exact absurd (by simp [hm]) hkold
        · rcases List.mem_cons.mp hn with rfl | hn
          · exact absurd hkmask.symm hmask
          · exact hsame hmask n hn (IpAddress.equals_iff.mpr ⟨hkmask.symm, hkfirst⟩)

end Keeps

end AllInSafe.Routes
