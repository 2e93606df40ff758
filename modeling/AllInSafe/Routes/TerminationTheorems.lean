import AllInSafe.Routes.Lemmas.Iterations

/-!
# The loop ends

Here the nets may be any, also of both families at once. A net is weighed by the bits below its prefix within a
number of bits that is enough for every address.
-/

namespace AllInSafe.Routes
open AllInSafe.Library

namespace IpAddress

variable {bits : Nat} {c m n : IpAddress}

theorem getLastAddress_of_le (h : n.addressBits ≤ n.networkMask) : n.getLastAddress = n.getFirstAddress := by
  have hbits : n.numBits = 0 := Nat.sub_eq_zero_of_le h
  rw [getLastAddress_eq, hbits]
  rfl

theorem firstHalf_getFirstAddress (n : IpAddress) : n.firstHalf.getFirstAddress = n.getFirstAddress := by
  by_cases h : n.networkMask < n.addressBits
  · exact getFirstAddress_firstHalf h
  · have hbits : n.firstHalf.numBits = 0 := Nat.sub_eq_zero_of_le (Nat.le_succ_of_le (not_lt.mp h))
    have hnet : n.firstHalf.netAddress = n.getFirstAddress := rfl
    rw [getFirstAddress_eq, hbits, hnet]
    simp

theorem lt_secondHalf_getFirstAddress (n : IpAddress) : n.getFirstAddress < n.secondHalf.getFirstAddress := by
  have hfirst := firstHalf_getFirstAddress n
  have hle := getFirstAddress_le_getLastAddress (n := n.firstHalf)
  by_cases h : n.networkMask < n.addressBits
  · have := getLastAddress_firstHalf h
    omega
  · have hbits : n.secondHalf.numBits = 0 := Nat.sub_eq_zero_of_le (Nat.le_succ_of_le (not_lt.mp h))
    have hnet : n.secondHalf.netAddress = n.firstHalf.getLastAddress + 1 := rfl
    rw [getFirstAddress_eq (n := n.secondHalf), hbits, hnet]
    simp
    omega

theorem addressBits_le (n : IpAddress) : n.addressBits ≤ 128 := by
  rw [addressBits]
  split <;> simp

/-- The weight of a net, as if its address had this number of bits. -/
def weightWithin (bits : Nat) (n : IpAddress) : Nat :=
  2 ^ (bits - n.networkMask + 1) - 1

theorem weightWithin_pos : 0 < n.weightWithin bits := by
  have : 2 ^ 1 ≤ 2 ^ (bits - n.networkMask + 1) := Nat.pow_le_pow_right Nat.two_pos (Nat.le_add_left 1 _)
  rw [weightWithin]
  omega

theorem weightWithin_halves (h : n.networkMask < bits) :
    n.firstHalf.weightWithin bits + n.secondHalf.weightWithin bits < n.weightWithin bits := by
  have hhalf : bits - n.networkMask = bits - (n.networkMask + 1) + 1 := by omega
  have hpos : 0 < 2 ^ (bits - (n.networkMask + 1) + 1) := Nat.two_pow_pos _
  change 2 ^ (bits - (n.networkMask + 1) + 1) - 1 + (2 ^ (bits - (n.networkMask + 1) + 1) - 1) < _
  rw [weightWithin, hhalf, Nat.pow_succ 2 (bits - (n.networkMask + 1) + 1)]
  omega

/-- Below a net of one address there is nothing left to weigh. -/
theorem weightWithin_of_le (h : bits ≤ n.networkMask) : n.weightWithin bits = 1 := by
  rw [weightWithin, Nat.sub_eq_zero_of_le h]
  rfl

/-- The net starts where the current one starts or after it, and it is not a part of it with the same base, unless
that can be split. -/
def FollowsWithin (bits : Nat) (c n : IpAddress) : Prop :=
  c.getFirstAddress ≤ n.getFirstAddress ∧
    (n.getFirstAddress = c.getFirstAddress → n.networkMask ≤ c.networkMask ∨ n.networkMask ≤ bits)

theorem followsWithin_of_compareTo (h : c.compareTo n ≠ .gt) : FollowsWithin bits c n := by
  rcases compareTo_ne_gt_iff.mp h with hlt | ⟨heq, hmask⟩
  · exact ⟨hlt.le, fun heq => absurd heq (ne_of_gt hlt)⟩
  · exact ⟨heq.le, fun _ => .inl hmask⟩

theorem FollowsWithin.firstHalf (h : FollowsWithin bits c n) : FollowsWithin bits c.firstHalf n := by
  refine ⟨(firstHalf_getFirstAddress c).le.trans h.1, fun heq => ?_⟩
  exact (h.2 (heq.trans (firstHalf_getFirstAddress c))).imp_left fun hmask => hmask.trans (Nat.le_succ _)

theorem followsWithin_secondHalf (h : c.getFirstAddress ≤ n.getFirstAddress) : FollowsWithin bits c n.secondHalf :=
  have hlt := h.trans_lt (lt_secondHalf_getFirstAddress n)
  ⟨hlt.le, fun heq => absurd heq (ne_of_gt hlt)⟩

/-- A net of one address is only met by a current net of one address: the first half of the next one is left out. -/
theorem getLastAddress_firstHalf_of_le (hcbits : c.addressBits ≤ bits) (hnbits : n.addressBits ≤ bits)
    (hbase : sameBase c n = true) (h : bits ≤ n.networkMask) :
    n.firstHalf.getLastAddress = c.getLastAddress := by
  obtain ⟨hfirst, hmask⟩ := sameBase_iff.mp hbase
  have hfirsthalf : n.firstHalf.addressBits ≤ n.firstHalf.networkMask :=
    (hnbits.trans h).trans (Nat.le_succ _)
  rw [getLastAddress_of_le hfirsthalf, getLastAddress_of_le (hcbits.trans (h.trans hmask)),
    firstHalf_getFirstAddress, hfirst]

end IpAddress

/-- The number of bits is enough for every pending net, and the current net is the least. -/
structure Bounded (bits : Nat) (s : Generation) : Prop where
  addressBits : ∀ n ∈ s.pending, n.addressBits ≤ bits
  follows : ∀ c, s.phase = .loop c → ∀ n ∈ s.networks, c.FollowsWithin bits n

/-- The nets of the queue that start where the current one starts. -/
def Generation.atBase (s : Generation) : Nat :=
  match s.phase with
  | .start | .done => 0
  | .loop c => s.networks.countP fun n => n.getFirstAddress = c.getFirstAddress

/-- A bound for the polls that are still to come: where a net of one address is moved on, the weight stays, but fewer
nets start where the current one starts. -/
def Generation.potentialWithin (bits : Nat) (s : Generation) : Nat :=
  let w := totalWeight (IpAddress.weightWithin bits)
  match s.phase with
  | .start => (w s.networks + 1) ^ 2
  | .loop c => w (c :: s.networks) * (w (c :: s.networks) + 1) + s.atBase
  | .done => 0

section

variable {bits : Nat} {debug : Bool} {s s' : Generation} {c n : IpAddress} {l : List IpAddress}
  {e : Option IpAddress}

theorem Generation.current_mem (hphase : s.phase = .loop c) : c ∈ s.pending := by
  simp [pending, hphase]

theorem Generation.mem_pending (hphase : s.phase = .loop c) (hn : n ∈ s.networks) : n ∈ s.pending := by
  simp [pending, hphase, hn]

/-! ## What one iteration keeps -/

namespace Bounded

theorem go {ipsDone : List IpAddress} (hbits : ∀ n ∈ c :: l, n.addressBits ≤ bits)
    (hfollows : ∀ n ∈ l, c.FollowsWithin bits n) : Bounded bits ⟨.loop c, l, ipsDone⟩ :=
  ⟨hbits, fun _ hc => by cases hc; exact hfollows⟩

/-- The net that the queue returns is the least of it. -/
theorem polled {ipsDone : List IpAddress} (hqueue : ∀ m ∈ s.networks, m.addressBits ≤ bits)
    (hpolls : Polls s.networks (some n) = true) : Bounded bits ⟨.loop n, s.networks.erase n, ipsDone⟩ := by
  obtain ⟨hmem, hleast⟩ := Invariant.polls_some hpolls
  refine go (fun m hm => hqueue m ((Invariant.mem_rest hmem).mpr hm)) fun m hm => ?_
  exact IpAddress.followsWithin_of_compareTo (hleast m hm)

theorem iterates (h : Bounded bits s) (hphase : s.phase = .loop c) (hpolls : Polls s.networks e = true)
    (hs : Iterates debug c (rest s.networks e) s.ipsDone e s') : Bounded bits s' := by
  have hc := h.addressBits c (Generation.current_mem hphase)
  have hqueue : ∀ n ∈ s.networks, n.addressBits ≤ bits :=
    fun n hn => h.addressBits n (Generation.mem_pending hphase hn)
  have hfollows := h.follows c hphase
  cases hs with
  | finish =>
      cases e with
      | none => exact ⟨fun n hn => hqueue n hn, fun c' hc' => by cases hc'⟩
      | some n => exact polled hqueue hpolls
  | forgetCurrent => exact polled hqueue hpolls
  | @splitNext n _ hbase =>
      obtain ⟨hmem, -⟩ := Invariant.polls_some hpolls
      have hfirst := (hfollows n hmem).1
      refine go (List.forall_mem_cons.mpr ⟨hc, fun m hm => ?_⟩) fun m hm => ?_
      · by_cases hold : m ∈ s.networks.erase n
        · exact hqueue m (List.mem_of_mem_erase hold)
        · rcases (mem_afterSplit hm hold).2 with rfl | ⟨rfl, -⟩
          · exact hqueue n hmem
          · exact hqueue n hmem
      · by_cases hold : m ∈ s.networks.erase n
        · exact hfollows m (List.mem_of_mem_erase hold)
        · rcases (mem_afterSplit hm hold).2 with rfl | ⟨rfl, hlast⟩
          · exact IpAddress.followsWithin_secondHalf hfirst
          · refine ⟨hfirst.trans (IpAddress.firstHalf_getFirstAddress n).ge, fun _ => .inr ?_⟩
            have hbits : n.networkMask < bits := not_le.mp fun hle =>
              hlast (IpAddress.getLastAddress_firstHalf_of_le hc (hqueue n hmem) hbase hle)
            exact hbits
  | @dropNext n =>
      refine go (List.forall_mem_cons.mpr ⟨hc, fun m hm => ?_⟩) fun m hm => ?_
      · exact hqueue m (List.mem_of_mem_erase hm)
      · exact hfollows m (List.mem_of_mem_erase hm)
  | @splitCurrent n =>
      obtain ⟨hmem, -⟩ := Invariant.polls_some hpolls
      refine go (List.forall_mem_cons.mpr ⟨hc, fun m hm => ?_⟩) fun m hm => ?_
      · rcases mem_withSecondHalf.mp hm with rfl | hm | ⟨rfl, -⟩
        · exact hqueue m hmem
        · exact hqueue m (List.mem_of_mem_erase hm)
        · exact hc
      · rcases mem_withSecondHalf.mp hm with rfl | hm | ⟨rfl, -⟩
        · exact (hfollows m hmem).firstHalf
        · exact (hfollows m (List.mem_of_mem_erase hm)).firstHalf
        · exact (IpAddress.followsWithin_secondHalf le_rfl).firstHalf

theorem step (h : Bounded bits s) (hstep : s.step debug e = some s') : Bounded bits s' := by
  obtain ⟨hpolls, ⟨hp, rfl⟩ | ⟨c, hphase, hs⟩⟩ := Generation.of_step hstep
  · have hqueue : ∀ n ∈ s.networks, n.addressBits ≤ bits := fun n hn => h.addressBits n (by
      simp [Generation.pending, hp, hn])
    cases e with
    | none => exact ⟨fun n hn => hqueue n hn, fun c' hc' => by cases hc'⟩
    | some n => exact polled hqueue hpolls
  · exact h.iterates hphase hpolls hs

end Bounded

/-! ## What one iteration takes from the bound -/

theorem countP_le_totalWeight (p : IpAddress → Bool) :
    l.countP p ≤ totalWeight (IpAddress.weightWithin bits) l := by
  induction l with
  | nil => simp
  | cons n l ih =>
      have hpos := @n.weightWithin_pos bits
      rw [List.countP_cons, totalWeight_cons]
      split
      · omega
      · omega

/-- Every state but the last one has a bound between two squares of its weight. -/
theorem Generation.potentialWithin_le (s : Generation) :
    s.potentialWithin bits ≤ (totalWeight (IpAddress.weightWithin bits) s.pending + 1) ^ 2 := by
  cases hp : s.phase with
  | start => simp [potentialWithin, pending, hp]
  | done => simp [potentialWithin, hp]
  | loop c =>
      have hcount := @countP_le_totalWeight bits s.networks fun n => n.getFirstAddress = c.getFirstAddress
      simp only [potentialWithin, pending, atBase, hp, totalWeight_cons]
      nlinarith

theorem potentialWithin_lt_of_weight (hphase : s.phase = .loop c)
    (hweight : totalWeight (IpAddress.weightWithin bits) s'.pending <
      c.weightWithin bits + totalWeight (IpAddress.weightWithin bits) s.networks) :
    s'.potentialWithin bits < s.potentialWithin bits := by
  have hle := @Generation.potentialWithin_le bits s'
  have hs : totalWeight (IpAddress.weightWithin bits) (c :: s.networks) *
      (totalWeight (IpAddress.weightWithin bits) (c :: s.networks) + 1) ≤ s.potentialWithin bits := by
    simp [Generation.potentialWithin, hphase]
  rw [totalWeight_cons] at hs
  nlinarith

theorem Bounded.potential_lt (h : Bounded bits s) (hphase : s.phase = .loop c)
    (hpolls : Polls s.networks e = true) (hs : Iterates debug c (rest s.networks e) s.ipsDone e s') :
    s'.potentialWithin bits < s.potentialWithin bits := by
  have hc := h.addressBits c (Generation.current_mem hphase)
  have hcpos := @c.weightWithin_pos bits
  have hrest : ∀ n, e = some n → n.weightWithin bits + totalWeight (IpAddress.weightWithin bits) (s.networks.erase n) =
      totalWeight (IpAddress.weightWithin bits) s.networks := by
    rintro n rfl
    exact totalWeight_erase (Invariant.polls_some hpolls).1
  cases hs with
  | finish hafter =>
      refine potentialWithin_lt_of_weight hphase ?_
      cases e with
      | none =>
          have hnil : s.networks = [] := List.isEmpty_iff.mp hpolls
          simp [Generation.pending, Phase.ofPoll, rest, hnil, hcpos]
      | some n =>
          have := hrest n rfl
          simp only [Generation.pending, Phase.ofPoll, rest, totalWeight_cons]
          omega
  | @forgetCurrent n =>
      have := hrest n rfl
      refine potentialWithin_lt_of_weight hphase ?_
      simp only [Generation.pending, rest, totalWeight_cons]
      omega
  | @splitNext n _ hbase =>
      have hmem := (Invariant.polls_some hpolls).1
      have hweight := hrest n rfl
      by_cases hbits : n.networkMask < bits
      · have := totalWeight_afterSplit (c := c) (s.networks.erase n) (IpAddress.weightWithin_halves hbits)
        refine potentialWithin_lt_of_weight hphase ?_
        simp only [Generation.pending, rest, totalWeight_cons]
        omega
      · -- The second half may weigh as much as the net, but it starts after the current one.
        have hn := h.addressBits n (Generation.mem_pending hphase hmem)
        have hlast := IpAddress.getLastAddress_firstHalf_of_le hc hn hbase (not_lt.mp hbits)
        have hsecond := IpAddress.weightWithin_of_le (n := n.secondHalf) (Nat.le_succ_of_le (not_lt.mp hbits))
        have hadd := @totalWeight_addUnlessContained_le (IpAddress.weightWithin bits) (s.networks.erase n) n.secondHalf
        have hnpos := @n.weightWithin_pos bits
        have hfirst := (IpAddress.sameBase_iff.mp hbase).1
        have hlt := IpAddress.lt_secondHalf_getFirstAddress n
        have hne : n.secondHalf.getFirstAddress ≠ c.getFirstAddress := by omega
        have hcount : (addUnlessContained (s.networks.erase n) n.secondHalf).countP
            (fun m => m.getFirstAddress = c.getFirstAddress) =
              (s.networks.erase n).countP fun m => m.getFirstAddress = c.getFirstAddress := by
          rw [addUnlessContained]
          split
          · rfl
          · simp [hne]
        have hold := (List.perm_cons_erase hmem).countP_eq fun m => m.getFirstAddress = c.getFirstAddress
        rw [List.countP_cons, if_pos (decide_eq_true hfirst.symm)] at hold
        simp only [Generation.potentialWithin, Generation.atBase, rest, hphase, totalWeight_cons, hold, afterSplit,
          if_pos hlast, hcount]
        nlinarith
  | @dropNext n =>
      have := hrest n rfl
      have := @n.weightWithin_pos bits
      refine potentialWithin_lt_of_weight hphase ?_
      simp only [Generation.pending, rest, totalWeight_cons]
      omega
  | @splitCurrent n hoverlap hbase =>
      have hmem := (Invariant.polls_some hpolls).1
      have hweight := hrest n rfl
      obtain ⟨hfirst, hmask⟩ := h.follows c hphase n hmem
      -- A net of one address is never split for a smaller one.
      have hbits : c.networkMask < bits := by
        by_contra hle
        have hlast := IpAddress.getLastAddress_of_le (hc.trans (not_lt.mp hle))
        have heq : c.getFirstAddress = n.getFirstAddress := by omega
        have hlt : c.networkMask < n.networkMask := not_le.mp fun hle' => by
          rw [IpAddress.sameBase_iff.mpr ⟨heq, hle'⟩] at hbase
          cases hbase
        rcases hmask heq.symm with hm | hm
        · omega
        · omega
      have := totalWeight_withSecondHalf (n := n) (s.networks.erase n) (IpAddress.weightWithin_halves hbits)
      refine potentialWithin_lt_of_weight hphase ?_
      simp only [Generation.pending, rest, totalWeight_cons]
      omega

/-- Every step takes from the bound. -/
theorem Bounded.step_potential_lt (h : Bounded bits s) (hstep : s.step debug e = some s') :
    s'.potentialWithin bits < s.potentialWithin bits := by
  obtain ⟨hpolls, ⟨hp, rfl⟩ | ⟨c, hphase, hs⟩⟩ := Generation.of_step hstep
  · cases e with
    | none => simp [Generation.potentialWithin, Phase.ofPoll, hp]
    | some n =>
        have hweight := totalWeight_erase (w := IpAddress.weightWithin bits) (Invariant.polls_some hpolls).1
        have hcount := @countP_le_totalWeight bits (s.networks.erase n) fun m => m.getFirstAddress = n.getFirstAddress
        have hpos := @n.weightWithin_pos bits
        simp only [Generation.potentialWithin, Generation.atBase, Phase.ofPoll, rest, hp, totalWeight_cons, ← hweight]
        nlinarith
  · exact h.potential_lt hphase hpolls hs

/-- A release build goes on until it is done. -/
theorem Generation.exists_step_release (hphase : s.phase ≠ .done) : ∃ e s', s.step false e = some s' := by
  obtain ⟨e, he⟩ := exists_polls s.networks
  cases hp : s.phase with
  | done => exact absurd hp hphase
  | start => exact ⟨e, _, by simp only [step, he, hp]; rfl⟩
  | loop c =>
      obtain ⟨t, ht⟩ := body_release c e (rest s.networks e) s.ipsDone
      exact ⟨e, t, by simp only [step, he, hp, ht]; rfl⟩

end

/-! ## The whole loop -/

theorem Bounded.init (debug : Bool) (space : NetworkSpace) : Bounded 128 (generateIPList debug space).init where
  addressBits n _ := n.addressBits_le
  follows c hc := by cases hc

/-- In a release build the loop ends for every set of nets, whatever their families, prefix lengths and flags and
however the queue breaks its ties. -/
theorem generateIPList_ends (space : NetworkSpace) :
    (generateIPList false space).Ends fun s => s.phase = .done := by
  have hstep : ∀ s e s', Bounded 128 s → (generateIPList false space).step s e = some s' →
      Bounded 128 s' ∧ s'.potentialWithin 128 < s.potentialWithin 128 :=
    fun s e s' hs hstep => ⟨hs.step hstep, hs.step_potential_lt hstep⟩
  exact Machine.ends_of_measure (Bounded.init false space) hstep fun s _ => Generation.exists_step_release

end AllInSafe.Routes
