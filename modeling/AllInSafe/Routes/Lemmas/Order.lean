import AllInSafe.Routes.TerminationTheorems

/-!
# The order of the nets

No net is lost sight of: what is done lies before the current net, and this one starts where the queue starts or
before it. Neither the flags nor the assertions matter for that.
-/

namespace AllInSafe.Routes
open AllInSafe.Library

namespace IpAddress

variable {v : Bool} {c m n : IpAddress}

/-- The net starts where the current one starts or after it, and it is not a part of it with the same base, unless
that can be split. -/
def Follows (c n : IpAddress) : Prop :=
  c.getFirstAddress ≤ n.getFirstAddress ∧
    (n.getFirstAddress = c.getFirstAddress → n.networkMask ≤ c.networkMask ∨ n.networkMask ≤ n.addressBits)

theorem follows_of_compareTo (h : c.compareTo n ≠ .gt) : Follows c n :=
  followsWithin_of_compareTo h

theorem Follows.firstHalf (h : Follows c n) : Follows c.firstHalf n :=
  FollowsWithin.firstHalf h

theorem follows_secondHalf (h : c.getFirstAddress ≤ n.getFirstAddress) : Follows c n.secondHalf :=
  followsWithin_secondHalf h

end IpAddress

/-- What is done is sorted and lies before what is pending, and the current net is the least. -/
structure Sorted (v : Bool) (s : Generation) : Prop where
  family : ∀ n ∈ s.pending, n.isV4 = v
  ordered : s.ipsDone.Pairwise fun m n => m.getLastAddress < n.getFirstAddress
  before : ∀ d ∈ s.ipsDone, ∀ n ∈ s.pending, d.getLastAddress < n.getFirstAddress
  follows : ∀ c, s.phase = .loop c → ∀ n ∈ s.networks, c.Follows n

namespace Sorted

variable {v debug : Bool} {s s' : Generation} {c : IpAddress} {l : List IpAddress}

/-- The current net is done, and the next one takes its place. -/
theorem finish (h : Sorted v s) (hphase : s.phase = .loop c) {phase : Phase}
    (hsub : ∀ n ∈ (⟨phase, l, []⟩ : Generation).pending, n ∈ s.networks ∧ c.getLastAddress < n.getFirstAddress)
    (hfollows : ∀ c', phase = .loop c' → ∀ n ∈ l, c'.Follows n) : Sorted v ⟨phase, l, treeSetAdd c s.ipsDone⟩ := by
  have hbefore : ∀ d ∈ s.ipsDone, d.getLastAddress < c.getFirstAddress :=
    fun d hd => h.before d hd c (Generation.current_mem hphase)
  rw [treeSetAdd_after hbefore]
  refine ⟨fun n hn => h.family n (Generation.mem_pending hphase (hsub n hn).1), ?_, ?_, hfollows⟩
  · refine List.pairwise_append.mpr ⟨h.ordered, List.pairwise_singleton _ _, fun d hd n hn => ?_⟩
    rw [List.mem_singleton.mp hn]
    exact hbefore d hd
  · intro d hd n hn
    rcases List.mem_append.mp hd with hd | hd
    · exact h.before d hd n (Generation.mem_pending hphase (hsub n hn).1)
    · rw [List.mem_singleton.mp hd]
      exact (hsub n hn).2

/-- The loop goes on with a net that does not start before the current one. -/
theorem go (h : Sorted v s) (hphase : s.phase = .loop c) {c' : IpAddress}
    (hfirst : c.getFirstAddress ≤ c'.getFirstAddress) (hfamily : ∀ n ∈ c' :: l, n.isV4 = v)
    (hfollows : ∀ n ∈ l, c'.Follows n) : Sorted v ⟨.loop c', l, s.ipsDone⟩ := by
  refine ⟨hfamily, h.ordered, fun d hd n hn => ?_, fun _ hc => by cases hc; exact hfollows⟩
  have hbefore := h.before d hd c (Generation.current_mem hphase)
  rcases List.mem_cons.mp hn with rfl | hn
  · exact hbefore.trans_le hfirst
  · exact hbefore.trans_le (hfirst.trans (hfollows n hn).1)

theorem iterates {e : Option IpAddress} (h : Sorted v s) (hphase : s.phase = .loop c)
    (hpolls : Polls s.networks e = true) (hs : Iterates debug c (rest s.networks e) s.ipsDone e s') : Sorted v s' := by
  have hc := h.family c (Generation.current_mem hphase)
  have hfollows := h.follows c hphase
  cases hs with
  | finish hafter =>
      cases e with
      | none =>
          have hnil : s.networks = [] := List.isEmpty_iff.mp hpolls
          refine h.finish hphase (fun n hn => ?_) fun c' hc' => by cases hc'
          change n ∈ s.networks at hn
          rw [hnil] at hn
          cases hn
      | some n =>
          obtain ⟨hmem, hleast⟩ := Invariant.polls_some hpolls
          have hlt := hafter n rfl
          refine h.finish hphase (fun m hm => ?_) fun c' hc' m hm => ?_
          · rcases List.mem_cons.mp hm with rfl | hm
            · exact ⟨hmem, hlt⟩
            · exact ⟨List.mem_of_mem_erase hm, hlt.trans_le (IpAddress.follows_of_compareTo (hleast m hm)).1⟩
          · cases hc'
            exact IpAddress.follows_of_compareTo (hleast m hm)
  | @forgetCurrent n _ hbase =>
      obtain ⟨hmem, hleast⟩ := Invariant.polls_some hpolls
      refine h.go hphase (hfollows n hmem).1 (fun m hm => ?_) fun m hm => IpAddress.follows_of_compareTo (hleast m hm)
      exact h.family m (Generation.mem_pending hphase ((Invariant.mem_rest hmem).mpr hm))
  | @splitNext n _ hbase =>
      obtain ⟨hmem, -⟩ := Invariant.polls_some hpolls
      have hn := h.family n (Generation.mem_pending hphase hmem)
      have hfirst := (hfollows n hmem).1
      refine h.go hphase le_rfl (List.forall_mem_cons.mpr ⟨hc, fun m hm => ?_⟩) fun m hm => ?_
      · by_cases hold : m ∈ s.networks.erase n
        · exact h.family m (Generation.mem_pending hphase (List.mem_of_mem_erase hold))
        · rcases (mem_afterSplit hm hold).2 with rfl | ⟨rfl, -⟩
          · exact hn
          · exact hn
      · by_cases hold : m ∈ s.networks.erase n
        · exact hfollows m (List.mem_of_mem_erase hold)
        · rcases (mem_afterSplit hm hold).2 with rfl | ⟨rfl, hlast⟩
          · exact IpAddress.follows_secondHalf hfirst
          · refine ⟨hfirst.trans (IpAddress.firstHalf_getFirstAddress n).ge, fun _ => .inr ?_⟩
            have hfamily : c.addressBits = n.addressBits := by rw [IpAddress.addressBits, IpAddress.addressBits, hc, hn]
            have hbits : n.networkMask < n.addressBits := not_le.mp fun hle =>
              hlast (IpAddress.getLastAddress_firstHalf_of_le hfamily.le le_rfl hbase hle)
            exact hbits
  | @dropNext n _ _ =>
      refine h.go hphase le_rfl (List.forall_mem_cons.mpr ⟨hc, fun m hm => ?_⟩) fun m hm => ?_
      · exact h.family m (Generation.mem_pending hphase (List.mem_of_mem_erase hm))
      · exact hfollows m (List.mem_of_mem_erase hm)
  | @splitCurrent n _ _ =>
      obtain ⟨hmem, -⟩ := Invariant.polls_some hpolls
      refine h.go hphase (IpAddress.firstHalf_getFirstAddress c).ge
        (List.forall_mem_cons.mpr ⟨hc, fun m hm => ?_⟩) fun m hm => ?_
      · rcases mem_withSecondHalf.mp hm with rfl | hm | ⟨rfl, -⟩
        · exact h.family m (Generation.mem_pending hphase hmem)
        · exact h.family m (Generation.mem_pending hphase (List.mem_of_mem_erase hm))
        · exact hc
      · rcases mem_withSecondHalf.mp hm with rfl | hm | ⟨rfl, -⟩
        · exact (hfollows m hmem).firstHalf
        · exact (hfollows m (List.mem_of_mem_erase hm)).firstHalf
        · exact (IpAddress.follows_secondHalf le_rfl).firstHalf

theorem step {e : Option IpAddress} (h : Sorted v s) (hstep : s.step debug e = some s') : Sorted v s' := by
  obtain ⟨hpolls, ⟨hp, rfl⟩ | ⟨c, hphase, hs⟩⟩ := Generation.of_step hstep
  · have hpending : s.pending = s.networks := by rw [Generation.pending, hp]
    have hsub : ∀ n ∈ (⟨.ofPoll e, rest s.networks e, s.ipsDone⟩ : Generation).pending, n ∈ s.pending := by
      rw [hpending]
      cases e with
      | none => exact fun n hn => hn
      | some n => exact fun m hm => (Invariant.mem_rest (Invariant.polls_some hpolls).1).mpr hm
    refine ⟨fun n hn => h.family n (hsub n hn), h.ordered, fun d hd n hn => h.before d hd n (hsub n hn), ?_⟩
    intro c hc n hn
    cases e with
    | none => cases hc
    | some m =>
        cases hc
        exact IpAddress.follows_of_compareTo ((Invariant.polls_some hpolls).2 n hn)
  · exact h.iterates hphase hpolls hs

end Sorted

/-! ## The length of a run -/

/-- A bound for the polls that are still to come: where a net of one address is moved on, the weight stays, but fewer
nets start where the current one starts. -/
def Generation.potential (s : Generation) : Nat :=
  match s.phase with
  | .start => (weight s.networks + 1) ^ 2
  | .loop c => weight (c :: s.networks) * (weight (c :: s.networks) + 1) + s.atBase
  | .done => 0

section

variable {v debug : Bool} {s s' : Generation} {l : List IpAddress}

theorem weight_eq {bits : Nat} (h : ∀ n ∈ l, n.addressBits = bits) :
    weight l = totalWeight (IpAddress.weightWithin bits) l := by
  rw [weight, totalWeight, List.map_congr_left fun n hn => ?_]
  rw [IpAddress.weight, IpAddress.numBits, h n hn, IpAddress.weightWithin]

namespace Sorted

theorem addressBits_eq (h : Sorted v s) : ∀ n ∈ s.pending, n.addressBits = if v = true then 32 else 128 :=
  fun n hn => by rw [IpAddress.addressBits, h.family n hn]

theorem bounded (h : Sorted v s) : Bounded (if v = true then 32 else 128) s where
  addressBits n hn := (h.addressBits_eq n hn).le
  follows c hc n hn := by
    rw [← h.addressBits_eq n (Generation.mem_pending hc hn)]
    exact h.follows c hc n hn

/-- Where all nets have one family, its number of bits is enough. -/
theorem potential_eq (h : Sorted v s) : s.potential = s.potentialWithin (if v = true then 32 else 128) := by
  have hbits := h.addressBits_eq
  cases hp : s.phase with
  | done => simp only [Generation.potential, Generation.potentialWithin, hp]
  | start =>
      rw [Generation.pending, hp] at hbits
      simp only [Generation.potential, Generation.potentialWithin, hp, weight_eq hbits]
  | loop c =>
      rw [Generation.pending, hp] at hbits
      simp only [Generation.potential, Generation.potentialWithin, hp, weight_eq hbits]

/-- Every step takes from the bound. -/
theorem step_potential_lt {e : Option IpAddress} (h : Sorted v s) (hstep : s.step debug e = some s') :
    s'.potential < s.potential := by
  rw [h.potential_eq, (h.step hstep).potential_eq]
  exact h.bounded.step_potential_lt hstep

/-- Every run keeps the order, and it is bounded. -/
theorem run {space : NetworkSpace} {es : List (Option IpAddress)} (h : Sorted v s)
    (hrun : (generateIPList debug space).runFrom s es = some s') :
    Sorted v s' ∧ es.length + s'.potential ≤ s.potential := by
  have hstep : ∀ t e t', Sorted v t → (generateIPList debug space).step t e = some t' →
      Sorted v t' ∧ t'.potential < t.potential :=
    fun t e t' ht hstep => ⟨ht.step hstep, ht.step_potential_lt hstep⟩
  exact Machine.measure_bounds hstep h hrun

end Sorted

end

end AllInSafe.Routes
