import AllInSafe.Routes.Lemmas.Doubled
import AllInSafe.Routes.Lemmas.Twins

/-!
# The routes: their order, the assertions, and the longest prefix

What is returned is sorted and disjoint for all nets. Whether an assertion can fail, and whether the positive list is
that of the longest prefixes, depends on the two slips.
-/

namespace AllInSafe.Routes
open AllInSafe.Library

section

variable {v debug : Bool} {calls : List Call} {s : Generation} {es : List (Option IpAddress)}

/-! ## The order -/

theorem Sorted.init (hvalid : ∀ c ∈ calls, c.net.Valid v) :
    Sorted v (generateIPList debug (.ofCalls calls)).init where
  family n hn := by
    obtain ⟨c, hc, rfl⟩ := mem_mIpAddresses hn
    exact (hvalid c hc).family
  ordered := List.Pairwise.nil
  before d hd := absurd hd List.not_mem_nil
  follows c hc := by cases hc

/-- In every run, in either build and however the queue breaks its ties, the nets that are done are disjoint and stand
in the order of their addresses; a run is bounded, and a release build goes on until it is done. -/
theorem ipsDone_ordered (hvalid : ∀ c ∈ calls, c.net.Valid v)
    (hrun : (generateIPList debug (.ofCalls calls)).runFrom (generateIPList debug (.ofCalls calls)).init es = some s) :
    (s.ipsDone.Pairwise fun m n => m.getFirstAddress < n.getFirstAddress ∧ m.getLastAddress < n.getFirstAddress) ∧
      es.length ≤ (weight (NetworkSpace.ofCalls calls).mIpAddresses + 1) ^ 2 ∧
      (debug = false → s.phase ≠ .done → ∃ e s', (generateIPList debug (.ofCalls calls)).step s e = some s') := by
  obtain ⟨hsorted, hlength⟩ := (Sorted.init hvalid).run hrun
  refine ⟨?_, ?_, fun hdebug hphase => ?_⟩
  · exact hsorted.ordered.imp fun hlt => ⟨IpAddress.getFirstAddress_le_getLastAddress.trans_lt hlt, hlt⟩
  · have hpotential : (generateIPList debug (.ofCalls calls)).init.potential =
        (weight (NetworkSpace.ofCalls calls).mIpAddresses + 1) ^ 2 := rfl
    omega
  · cases hdebug
    exact Generation.exists_step_release hphase

end

/-- The net 10.0.0.d/len. -/
def net10 (d len : Nat) (included : Bool) : Call :=
  .addIP ⟨10 * 2 ^ 24 + d, len⟩ included

/-- An excluded net within an included one, and an included one within it. -/
def nestedCalls : List Call :=
  [net10 0 24 true, net10 64 26 false, net10 80 28 true]

def nestedPolls : List (Option IpAddress) :=
  [some (net10 0 24 true).net, some (net10 64 26 false).net, some (net10 64 26 false).net,
    some (net10 64 26 false).net, some (net10 80 28 true).net, some (net10 80 28 true).net,
    some (net10 80 28 true).net, some (net10 96 27 false).net, some (net10 128 25 true).net, none]

theorem nestedCalls_valid : ∀ c ∈ nestedCalls, c.net.Valid true := by
  intro c hc
  have hcalls : c = net10 0 24 true ∨ c = net10 64 26 false ∨ c = net10 80 28 true := by
    simpa [nestedCalls] using hc
  rcases hcalls with rfl | rfl | rfl <;> exact ⟨rfl, by decide⟩

theorem ipsDone_ordered_nested :
    ∃ s, (generateIPList true (.ofCalls nestedCalls)).runFrom
      (generateIPList true (.ofCalls nestedCalls)).init nestedPolls = some s ∧ s.phase = .done ∧
    s.ipsDone.Pairwise fun m n => m.getFirstAddress < n.getFirstAddress ∧ m.getLastAddress < n.getFirstAddress :=
  ⟨_, rfl, rfl, (@ipsDone_ordered true true nestedCalls _ nestedPolls nestedCalls_valid rfl).1⟩

/-! ## The assertions -/

/-- The call adds a net of the family, with an address and a prefix length that the family has. -/
def Call.IsNet (v : Bool) : Call → Prop
  | addIP cidrIp _ => v = true ∧ cidrIp.getInt < 2 ^ 32 ∧ cidrIp.len ≤ 32
  | addIPv6 _ mask _ => v = false ∧ mask ≤ 128

instance (v : Bool) : (c : Call) → Decidable (c.IsNet v)
  | .addIP _ _ => inferInstanceAs (Decidable (_ ∧ _))
  | .addIPv6 _ _ _ => inferInstanceAs (Decidable (_ ∧ _))

theorem IpAddress.addBytes_lt (bytes : List UInt8) (a : Nat) :
    addBytes a (8 * bytes.length) bytes < a + 2 ^ (8 * bytes.length) := by
  induction bytes generalizing a with
  | nil => simp [addBytes]
  | cons b bytes ih =>
      have hshift : 8 * (b :: bytes).length - 8 = 8 * bytes.length := by simp; omega
      have hpow : 2 ^ (8 * (b :: bytes).length) = 256 * 2 ^ (8 * bytes.length) := by
        rw [List.length_cons, Nat.mul_add, Nat.pow_add, Nat.mul_comm]
      have hb : b.toNat * 2 ^ (8 * bytes.length) ≤ 255 * 2 ^ (8 * bytes.length) :=
        Nat.mul_le_mul_right _ (Nat.le_of_lt_succ b.toNat_lt)
      have hrest := ih (a + b.toNat * 2 ^ (8 * bytes.length))
      rw [addBytes, hshift, Nat.shiftLeft_eq]
      omega

theorem IpAddress.getLastAddress_lt {n : IpAddress} (hbits : n.networkMask ≤ n.addressBits)
    (haddress : n.netAddress < 2 ^ n.addressBits) : n.getLastAddress < 2 ^ n.addressBits := by
  have hpos : 0 < 2 ^ n.numBits := Nat.two_pow_pos _
  have hpow : 2 ^ n.addressBits = 2 ^ n.numBits * 2 ^ n.networkMask := by
    rw [← Nat.pow_add, numBits, Nat.sub_add_cancel hbits]
  have hdiv : n.netAddress / 2 ^ n.numBits < 2 ^ n.networkMask := by
    rwa [Nat.div_lt_iff_lt_mul hpos, Nat.mul_comm, ← hpow]
  have hle : 2 ^ n.numBits * (n.netAddress / 2 ^ n.numBits + 1) ≤ 2 ^ n.addressBits := by
    rw [hpow]
    exact Nat.mul_le_mul_left _ hdiv
  rw [getLastAddress_eq, getFirstAddress_eq]
  rw [Nat.mul_add] at hle
  omega

theorem Call.IsNet.valid {v : Bool} {c : Call} (h : c.IsNet v) : c.net.Valid v ∧ c.net.InRange := by
  cases c with
  | addIP cidrIp included =>
      obtain ⟨rfl, haddress, hlen⟩ := h
      exact ⟨⟨rfl, hlen⟩, hlen, IpAddress.getLastAddress_lt hlen haddress⟩
  | addIPv6 address mask included =>
      obtain ⟨rfl, hmask⟩ := h
      have hbytes := IpAddress.addBytes_lt address.getAddress 0
      rw [address.length_getAddress, Nat.zero_add] at hbytes
      exact ⟨⟨rfl, hmask⟩, hmask, IpAddress.getLastAddress_lt hmask hbytes⟩

/-- No assertion fails in a debug build, and every net that either build returns is in range. -/
def AssertionsHold (calls : List Call) : Prop :=
  (∀ es s e, (generateIPList true (.ofCalls calls)).runFrom (generateIPList true (.ofCalls calls)).init es = some s →
      s.Fails e = false) ∧
    ∀ debug es s, (generateIPList debug (.ofCalls calls)).runFrom (generateIPList debug (.ofCalls calls)).init es =
      some s → s.phase = .done → ∀ n ∈ s.ipsDone, n.InRange

section

variable {v debug : Bool} {calls : List Call} {s : Generation} {es : List (Option IpAddress)}

section

variable (hnets : ∀ c ∈ calls, c.IsNet v)

include hnets

theorem mIpAddresses_valid : ∀ n ∈ (NetworkSpace.ofCalls calls).mIpAddresses, n.Valid v := by
  intro n hn
  obtain ⟨c, hc, rfl⟩ := mem_mIpAddresses hn
  exact (hnets c hc).valid.1

theorem init_inRange : (generateIPList debug (.ofCalls calls)).init.InRange := by
  rintro n (hn | hn)
  · exact absurd hn List.not_mem_nil
  · obtain ⟨c, hc, rfl⟩ := mem_mIpAddresses hn
    exact (hnets c hc).valid.2

/-- An overlay can be followed by an assertion that fails. -/
theorem not_overlays_of_not_fails (hholds : ∀ es s e,
      (generateIPList true (.ofCalls calls)).runFrom (generateIPList true (.ofCalls calls)).init es = some s →
        s.Fails e = false) :
    ∀ es s e, (generateIPList true (.ofCalls calls)).runFrom (generateIPList true (.ofCalls calls)).init es = some s →
      s.Overlays e = false := by
  intro es s e hrun
  refine Bool.not_eq_true _ ▸ fun hoverlays => ?_
  cases e with
  | none => cases hoverlays
  | some n =>
      have hsorted := ((Sorted.init fun c hc => (hnets c hc).valid.1).run hrun).1
      have hstep : ∀ s e t, Generation.InRange s →
          (generateIPList true (.ofCalls calls)).step s e = some t → Generation.InRange t :=
        fun s e t hs ht => hs.step ht
      have hs := Machine.invariant hstep (init_inRange hnets) hrun
      obtain ⟨es', t, e, ht, hfails⟩ := @willFail_of_overlays (.ofCalls calls) _ _ _ hoverlays hsorted hs
      have hfull := Machine.runFrom_append.mpr ⟨s, hrun, ht⟩
      rw [hholds _ t e hfull] at hfails
      cases hfails

/-- Otherwise a run of either build is a run of a debug build. -/
theorem run_of_not_overlays (hoverlays : ∀ es s e,
      (generateIPList true (.ofCalls calls)).runFrom (generateIPList true (.ofCalls calls)).init es = some s →
        s.Overlays e = false)
    (hrun : (generateIPList debug (.ofCalls calls)).runFrom (generateIPList debug (.ofCalls calls)).init es = some s) :
    (generateIPList true (.ofCalls calls)).runFrom (generateIPList true (.ofCalls calls)).init es = some s ∧
      Sound v s ∧ s.InRange :=
  have hvalid := mIpAddresses_valid hnets
  have hsound : Sound v (generateIPList true (.ofCalls calls)).init :=
    ⟨_, .init hvalid (Ascending.ofCalls.consistent hvalid)⟩
  hsound.run (init_inRange hnets) hoverlays hrun

theorem not_overlays_iff : (∀ es s e,
      (generateIPList true (.ofCalls calls)).runFrom (generateIPList true (.ofCalls calls)).init es = some s →
        s.Overlays e = false) ↔
    ∀ block included, block.isV4 = v →
      ¬ Doubled (remaining (NetworkSpace.ofCalls calls).mIpAddresses) block included := by
  have hvalid := mIpAddresses_valid hnets
  refine (overlays_iff hvalid (Ascending.ofCalls.consistent hvalid) Ascending.ofCalls).trans ?_
  exact ⟨fun h block included hv hdoubled => h block included ⟨hv, hdoubled.bits.le⟩ hdoubled,
    fun h block included hblock => h block included hblock.family⟩

end

/-- For every set of nets, the assertions hold and every net that is returned is in range exactly when no block is
doubled by the nets that remain without the hidden ones. -/
theorem assertions_hold_iff (hnets : ∀ c ∈ calls, c.IsNet v) : AssertionsHold calls ↔
    ∀ block included, block.isV4 = v →
      ¬ Doubled (remaining (NetworkSpace.ofCalls calls).mIpAddresses) block included := by
  rw [← not_overlays_iff hnets]
  constructor
  · exact fun h => not_overlays_of_not_fails hnets h.1
  · intro hoverlays
    refine ⟨fun es s e hrun => ?_, fun debug es s hrun _ n hn => ?_⟩
    · exact (run_of_not_overlays hnets hoverlays hrun).2.1.not_fails (hoverlays es s e hrun)
    · exact (run_of_not_overlays hnets hoverlays hrun).2.2 n (.inl hn)

end

/-- An excluded net within an included one, and an included one within it, each at the end of the larger one. -/
def keptCalls : List Call :=
  [net10 0 29 true, net10 4 30 false, net10 6 31 true]

/-- Within an included net, its second half and a quarter of the first one are excluded. -/
def overlaidCalls : List Call :=
  [net10 0 28 true, net10 4 30 false, net10 8 29 false]

theorem assertions_hold_overlaid : AssertionsHold keptCalls ∧ ¬ AssertionsHold overlaidCalls := by
  have hkept : ∀ c ∈ keptCalls, c.IsNet true := by decide
  have hoverlaid : ∀ c ∈ overlaidCalls, c.IsNet true := by decide
  have hshown : ∀ n ∈ (NetworkSpace.ofCalls keptCalls).mIpAddresses,
      ¬ Hidden (NetworkSpace.ofCalls keptCalls).mIpAddresses n := by decide +kernel
  constructor
  · rw [assertions_hold_iff hkept, remaining_eq hshown, not_doubled_iff (mIpAddresses_valid hkept)]
    decide +kernel
  · exact fun h => (assertions_hold_iff hoverlaid).mp h (net10 0 28 true).net true rfl (by decide +kernel)

theorem overlaid_assertion_fails : (∀ c ∈ overlaidCalls, c.IsNet true) ∧
    (overlaidCalls.Pairwise fun a b => a.net.equals b.net = false) ∧
    ∃ es s e, (generateIPList true (.ofCalls overlaidCalls)).runFrom
      (generateIPList true (.ofCalls overlaidCalls)).init es = some s ∧ s.Fails e = true := by
  refine ⟨by decide, by decide, [some (net10 0 28 true).net, some (net10 4 30 false).net,
    some (net10 4 30 false).net, some (net10 4 30 false).net, some (net10 8 29 false).net,
    some (net10 8 29 true).net], _, some (net10 8 30 true).net, rfl, ?_⟩
  decide

/-! ## The longest prefix -/

/-- Some net contains the address, and the one with the longest prefix among those is included. -/
def IncludedByLongestPrefix (calls : List Call) (x : Nat) : Prop :=
  ∃ c ∈ calls, c.net.Covers x ∧ c.net.included = true ∧
    ∀ d ∈ calls, d.net.Covers x → d.net.networkMask ≤ c.net.networkMask

/-- Whatever the queue returns, the loop of either build goes on until it ends, it ends after a bounded number of
polls, and then the positive list covers the addresses whose longest prefix is included. -/
def ListsLongestPrefix (calls : List Call) : Prop :=
  ∀ debug es s,
    (generateIPList debug (.ofCalls calls)).runFrom (generateIPList debug (.ofCalls calls)).init es = some s →
      (s.phase ≠ .done → (∃ e, Polls s.networks e = true) ∧ ∀ e, Polls s.networks e = true →
        ∃ s', (generateIPList debug (.ofCalls calls)).step s e = some s') ∧
      es.length ≤ weight (calls.map Call.net) + 1 ∧
      (s.phase = .done → ∀ x, (∃ n ∈ getPositiveIPList s.ipsDone, n.Covers x) ↔ IncludedByLongestPrefix calls x)

section

variable {v debug : Bool} {calls : List Call} {s : Generation} {es : List (Option IpAddress)}

theorem includedByLongestPrefix_iff {x : Nat} :
    IncludedByLongestPrefix calls x ↔ nets.Resolves (calls.map Call.net) x true := by
  constructor
  · rintro ⟨c, hc, hx, hincluded, hlongest⟩
    refine ⟨c.net, ⟨List.mem_map_of_mem hc, hx, fun m hm hmx => ?_⟩, hincluded⟩
    obtain ⟨d, hd, rfl⟩ := List.mem_map.mp hm
    exact hlongest d hd hmx
  · rintro ⟨n, hn, hincluded⟩
    obtain ⟨c, hc, rfl⟩ := List.mem_map.mp hn.mem
    exact ⟨c, hc, hn.covers, hincluded, fun d hd hx => hn.longest _ (List.mem_map_of_mem hd) hx⟩

/-- Nets in their order do not overlap, so that a net of the positive list is the only one at its addresses. -/
theorem mem_getPositiveIPList_iff {ipsDone : List IpAddress} {x : Nat}
    (hordered : ipsDone.Pairwise fun m n => m.getLastAddress < n.getFirstAddress) :
    (∃ n ∈ getPositiveIPList ipsDone, n.Covers x) ↔ nets.Resolves ipsDone x true := by
  have hunique : ∀ m ∈ ipsDone, ∀ n ∈ ipsDone, m.Covers x → n.Covers x → m = n := by
    refine List.Pairwise.forall_of_forall_of_flip (fun _ _ _ _ => rfl) (hordered.imp fun hlt hm hn => ?_)
      (hordered.imp fun {m n} hlt (hn : n.Covers x) (hm : m.Covers x) => ?_)
    · exact absurd (hm.2.trans_lt hlt) (not_lt_of_ge hn.1)
    · exact absurd (hm.2.trans_lt hlt) (not_lt_of_ge hn.1)
  constructor
  · rintro ⟨n, hn, hx⟩
    obtain ⟨hmem, hincluded⟩ := List.mem_filter.mp hn
    exact ⟨n, ⟨hmem, hx, fun m hm hmx => by rw [hunique m hm n hmem hmx hx]⟩, hincluded⟩
  · rintro ⟨n, hn, hincluded⟩
    exact ⟨n, List.mem_filter.mpr ⟨hn.mem, hincluded⟩, hn.covers⟩

/-- Where the runs of a debug build are tracked, those of either build go on, and they are bounded. -/
theorem run_of_not_doubled (hnets : ∀ c ∈ calls, c.IsNet v)
    (hdistinct : calls.Pairwise fun a b => a.net.equals b.net = false)
    (hnone : ∀ block included, block.isV4 = v →
      ¬ Doubled (remaining (NetworkSpace.ofCalls calls).mIpAddresses) block included)
    (hrun : (generateIPList debug (.ofCalls calls)).runFrom (generateIPList debug (.ofCalls calls)).init es = some s) :
    Tracked v (NetworkSpace.ofCalls calls).mIpAddresses s ∧ es.length ≤ weight (calls.map Call.net) + 1 ∧
      (s.phase ≠ .done → ∀ e, Polls s.networks e = true →
        ∃ s', (generateIPList debug (.ofCalls calls)).step s e = some s') := by
  have hvalid := mIpAddresses_valid hnets
  obtain ⟨hdebug, ⟨l, hinv⟩, -⟩ := run_of_not_overlays hnets ((not_overlays_iff hnets).mpr hnone) hrun
  obtain ⟨htracked, hlength⟩ := tracked_of_not_doubled hvalid (Ascending.ofCalls.consistent hvalid) Ascending.ofCalls
    (fun block included hblock => hnone block included hblock.family) hdebug
  refine ⟨htracked, ?_, fun hphase e hpolls => ?_⟩
  · have hmeasure : (generateIPList true (.ofCalls calls)).init.measure = weight (calls.map Call.net) + 1 :=
      congrArg (· + 1) ((mIpAddresses_perm hdistinct).map IpAddress.weight).sum_eq
    exact (Nat.le_add_right _ _).trans (hlength.trans hmeasure.le)
  · obtain ⟨s', hs', -⟩ := hinv.step debug hphase hpolls
    exact ⟨s', hs'⟩

/-- For every set of distinct nets, the positive list is that of the longest prefixes, whatever the queue returns,
exactly when no net is hidden and no block is doubled. -/
theorem getPositiveIPList_longestPrefix_iff (hnets : ∀ c ∈ calls, c.IsNet v)
    (hdistinct : calls.Pairwise fun a b => a.net.equals b.net = false) : ListsLongestPrefix calls ↔
    (∀ n ∈ (NetworkSpace.ofCalls calls).mIpAddresses, ¬ Hidden (NetworkSpace.ofCalls calls).mIpAddresses n) ∧
      ∀ block included, block.isV4 = v → ¬ Doubled (NetworkSpace.ofCalls calls).mIpAddresses block included := by
  have hvalid := mIpAddresses_valid hnets
  have hconsistent : nets.Consistent (NetworkSpace.ofCalls calls).mIpAddresses := Ascending.ofCalls.consistent hvalid
  obtain ⟨-, hsub, hmem⟩ := mem_remaining_iff hvalid hconsistent Ascending.ofCalls
  have hlongest : ∀ x, IncludedByLongestPrefix calls x ↔
      nets.Resolves (NetworkSpace.ofCalls calls).mIpAddresses x true := fun x =>
    includedByLongestPrefix_iff.trans (Entries.Resolves.congr fun n _ => (mIpAddresses_perm hdistinct).mem_iff.symm)
  constructor
  · intro h
    have hoverlays := not_overlays_of_not_fails hnets fun es s e hrun => by
      refine Bool.not_eq_true _ ▸ fun hfails => ?_
      obtain ⟨hpolls, hphase, hnone⟩ := Generation.step_none_of_fails hfails
      obtain ⟨s', hs'⟩ := ((h true es s hrun).1 hphase).2 e hpolls
      have hstep : s.step true e = some s' := hs'
      rw [hnone] at hstep
      cases hstep
    obtain ⟨es, s, hrun, htracked, hphase⟩ := exists_tracked_done hvalid hconsistent Ascending.ofCalls hoverlays
    obtain ⟨hnone, hordered, hresolves⟩ := htracked.of_done hphase
    have hkept := mem_remaining_of_resolves hvalid hconsistent Ascending.ofCalls fun x => by
      rw [← hresolves, ← mem_getPositiveIPList_iff hordered, ← hlongest]
      exact (h true es s hrun).2.2 hphase x
    have hiff : ∀ n, n ∈ remaining (NetworkSpace.ofCalls calls).mIpAddresses ↔
      n ∈ (NetworkSpace.ofCalls calls).mIpAddresses := fun n => ⟨hsub n, hkept n⟩
    refine ⟨fun n hn hhidden => ?_, fun block included hv hdoubled => ?_⟩
    · exact (hmem n hn).mp (hkept n hn) ((hidden_congr hiff).mpr hhidden)
    · exact hnone block included ⟨hv, hdoubled.bits.le⟩ ((doubled_congr hiff).mpr hdoubled)
  · rintro ⟨hshown, hnone⟩ debug es s hrun
    rw [← remaining_eq hshown] at hnone
    obtain ⟨htracked, hlength, hstep⟩ := run_of_not_doubled hnets hdistinct hnone hrun
    refine ⟨fun hphase => ⟨exists_polls _, hstep hphase⟩, hlength, fun hphase x => ?_⟩
    obtain ⟨-, hordered, hresolves⟩ := htracked.of_done hphase
    rw [mem_getPositiveIPList_iff hordered, hresolves, remaining_eq hshown, hlongest]

end

/-- The second half of a net is excluded, and half of that is included again: the loop drops the last one. -/
def droppedCalls : List Call :=
  [net10 0 28 true, net10 8 29 false, net10 8 30 true]

theorem getPositiveIPList_longestPrefix_iff_kept :
    ListsLongestPrefix keptCalls ∧ ¬ ListsLongestPrefix droppedCalls := by
  have hkept : ∀ c ∈ keptCalls, c.IsNet true := by decide
  have hdropped : ∀ c ∈ droppedCalls, c.IsNet true := by decide
  constructor
  · exact (getPositiveIPList_longestPrefix_iff hkept (by decide)).mpr
      ⟨by decide +kernel, (not_doubled_iff (mIpAddresses_valid hkept)).mpr (by decide +kernel)⟩
  · exact fun h => ((getPositiveIPList_longestPrefix_iff hdropped (by decide)).mp h).1 (net10 8 30 true).net
      (by decide) (by decide +kernel)

theorem getPositiveIPList_dropped :
    ∃ es s, (generateIPList true (.ofCalls droppedCalls)).runFrom
        (generateIPList true (.ofCalls droppedCalls)).init es = some s ∧ s.phase = .done ∧
      IncludedByLongestPrefix droppedCalls (10 * 2 ^ 24 + 8) ∧
      ¬ ∃ n ∈ getPositiveIPList s.ipsDone, n.Covers (10 * 2 ^ 24 + 8) := by
  refine ⟨[some (net10 0 28 true).net, some (net10 8 30 true).net, some (net10 8 29 false).net,
    some (net10 8 29 false).net, none], _, rfl, rfl, ?_, ?_⟩
  · exact ⟨net10 8 30 true, by simp [droppedCalls], by decide, rfl, by decide⟩
  · decide

end AllInSafe.Routes
