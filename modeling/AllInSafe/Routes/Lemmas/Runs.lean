import AllInSafe.Routes.Lemmas.Steps
import Mathlib

/-!
# What a whole run keeps, and why it ends
-/

namespace AllInSafe.Routes
open AllInSafe.Library

/-- The nets that the loop has still to deal with. -/
def Generation.pending (s : Generation) : List IpAddress :=
  match s.phase with
  | .start | .done => s.networks
  | .loop currentNet => currentNet :: s.networks

structure Invariant (v : Bool) (l : List IpAddress) (s : Generation) : Prop where
  keeps : Keeps v l s.ipsDone s.pending
  least : ∀ currentNet, s.phase = .loop currentNet → ∀ n ∈ s.networks, currentNet.compareTo n ≠ .gt
  finished : s.phase = .done → s.networks = []

/-- One more than twice the addresses of a net, less two: the halves of a net weigh less than the net. -/
def IpAddress.weight (ip : IpAddress) : Nat :=
  2 ^ (ip.numBits + 1) - 1

def weight (l : List IpAddress) : Nat :=
  (l.map IpAddress.weight).sum

/-- A bound for the number of polls that are still to come. -/
def Generation.measure (s : Generation) : Nat :=
  weight s.pending + if s.phase = .start then 1 else 0

/-! ## The weight -/

/-- The weight of a queue, for any weight of its nets. -/
def totalWeight (w : IpAddress → Nat) (l : List IpAddress) : Nat :=
  (l.map w).sum

section

variable {w : IpAddress → Nat}

@[simp] theorem totalWeight_nil : totalWeight w [] = 0 := rfl

@[simp] theorem totalWeight_cons (n : IpAddress) (l : List IpAddress) :
    totalWeight w (n :: l) = w n + totalWeight w l := by
  simp [totalWeight]

@[simp] theorem totalWeight_append (l l' : List IpAddress) :
    totalWeight w (l ++ l') = totalWeight w l + totalWeight w l' := by
  simp [totalWeight]

theorem totalWeight_erase {l : List IpAddress} {n : IpAddress} (h : n ∈ l) :
    w n + totalWeight w (l.erase n) = totalWeight w l := by
  rw [← totalWeight_cons]
  exact ((List.perm_cons_erase h).map w).sum_eq.symm

theorem totalWeight_addUnlessContained_le (l : List IpAddress) (n : IpAddress) :
    totalWeight w (addUnlessContained l n) ≤ totalWeight w l + w n := by
  rw [addUnlessContained]
  split <;> simp

theorem totalWeight_afterSplit {c n : IpAddress} (l : List IpAddress) (h : w n.firstHalf + w n.secondHalf < w n) :
    totalWeight w (afterSplit c n l) < w n + totalWeight w l := by
  have hsecond := @totalWeight_addUnlessContained_le w l n.secondHalf
  have hfirst := @totalWeight_addUnlessContained_le w (addUnlessContained l n.secondHalf) n.firstHalf
  rw [afterSplit]
  split <;> omega

theorem totalWeight_withSecondHalf {c n : IpAddress} (l : List IpAddress)
    (h : w c.firstHalf + w c.secondHalf < w c) :
    w c.firstHalf + totalWeight w (withSecondHalf c n l) < w c + (w n + totalWeight w l) := by
  rw [withSecondHalf]
  split <;> simp only [totalWeight_append, totalWeight_cons, totalWeight_nil] <;> omega

end

theorem IpAddress.weight_pos (n : IpAddress) : 0 < n.weight := by
  have : 2 ^ 1 ≤ 2 ^ (n.numBits + 1) := Nat.pow_le_pow_right Nat.two_pos (Nat.le_add_left 1 _)
  rw [weight]
  omega

theorem IpAddress.weight_halves {n : IpAddress} (h : n.networkMask < n.addressBits) :
    n.firstHalf.weight + n.secondHalf.weight < n.weight := by
  have hpos : 0 < 2 ^ (n.firstHalf.numBits + 1) := Nat.two_pow_pos _
  rw [weight, weight, weight, numBits_firstHalf h, show n.secondHalf.numBits = n.firstHalf.numBits from rfl,
    Nat.pow_succ 2 (n.firstHalf.numBits + 1)]
  omega

@[simp] theorem weight_nil : weight [] = 0 := rfl

@[simp] theorem weight_cons (n : IpAddress) (l : List IpAddress) : weight (n :: l) = n.weight + weight l :=
  totalWeight_cons n l

theorem weight_afterSplit {c n : IpAddress} (l : List IpAddress) (h : n.networkMask < n.addressBits) :
    weight (afterSplit c n l) < n.weight + weight l :=
  totalWeight_afterSplit l (IpAddress.weight_halves h)

theorem weight_withSecondHalf {c n : IpAddress} (l : List IpAddress) (h : c.networkMask < c.addressBits) :
    c.firstHalf.weight + weight (withSecondHalf c n l) < c.weight + (n.weight + weight l) :=
  totalWeight_withSecondHalf l (IpAddress.weight_halves h)

/-! ## The body of the loop -/

section

variable {v debug : Bool} {l ipsDone networks : List IpAddress} {currentNet nextNet : IpAddress}

theorem assertTrue_ok {f : Bool} (h : f = true) : assertTrue debug f = .ok () := by
  rw [assertTrue, h, Bool.not_true, Bool.and_false]
  rfl

theorem IpAddress.split_ok {n : IpAddress} (h : n.networkMask < n.addressBits) :
    n.split debug = .ok (n.firstHalf, n.secondHalf) := by
  rw [split, assertTrue_ok (decide_eq_true (getLastAddress_secondHalf h))]
  rfl

theorem splitNext_ok (h : Keeps v l ipsDone (currentNet :: nextNet :: networks))
    (hbase : sameBase currentNet nextNet = true) (hbits : nextNet.networkMask < nextNet.addressBits) :
    splitNext debug currentNet nextNet networks = .ok (afterSplit currentNet nextNet networks) := by
  obtain ⟨hcvalid, hnvalid⟩ := h.validHead
  rw [IpAddress.sameBase_iff] at hbase
  rw [splitNext, IpAddress.split_ok hbits, afterSplit]
  simp only [bind, Except.bind]
  split
  · rename_i hlast
    have hfirst := (IpAddress.getFirstAddress_firstHalf hbits).trans hbase.1.symm
    rw [assertTrue_ok (decide_eq_true ((hnvalid.firstHalf hbits).networkMask_eq hcvalid hfirst hlast))]
    rfl
  · rfl

theorem splitCurrent_ok (h : Keeps v l ipsDone (currentNet :: nextNet :: networks))
    (hbits : currentNet.networkMask < currentNet.addressBits)
    (hfirst : currentNet.getFirstAddress < nextNet.getFirstAddress)
    (hlast : nextNet.getLastAddress ≤ currentNet.getLastAddress) :
    splitCurrent debug currentNet nextNet networks =
      .ok (currentNet.firstHalf, withSecondHalf currentNet nextNet networks) := by
  rw [splitCurrent, IpAddress.split_ok hbits, withSecondHalf]
  simp only [bind, Except.bind]
  split
  · rename_i hmask
    rw [assertTrue_ok (decide_eq_true (h.next_eq_secondHalf hbits hfirst hlast hmask)),
      assertTrue_ok (decide_eq_true (IpAddress.getLastAddress_secondHalf hbits))]
    rfl
  · rfl

theorem treeSetAdd_after (h : ∀ d ∈ ipsDone, d.getLastAddress < currentNet.getFirstAddress) :
    treeSetAdd currentNet ipsDone = ipsDone ++ [currentNet] := by
  induction ipsDone with
  | nil => rfl
  | cons d ds ih =>
      rw [List.forall_mem_cons] at h
      have hlt := (IpAddress.getFirstAddress_le_getLastAddress (n := d)).trans_lt h.1
      rw [treeSetAdd, IpAddress.compareTo_gt_of_lt hlt]
      exact congrArg (d :: ·) (ih h.2)

variable (debug)

/-- The current net is done. -/
theorem body_finish (h : Keeps v l ipsDone (currentNet :: nextNet :: networks))
    (hnext : ∀ n ∈ networks, nextNet.compareTo n ≠ .gt) (hoverlap : overlaps currentNet nextNet = false) :
    ∃ s', body debug currentNet (some nextNet) networks ipsDone = .ok s' ∧
      s'.measure < weight (currentNet :: nextNet :: networks) ∧ Invariant v l s' := by
  have hpos := currentNet.weight_pos
  have hlt : currentNet.getLastAddress < nextNet.getFirstAddress := by
    rwa [overlaps, Bool.not_eq_false', decide_eq_true_eq] at hoverlap
  have hafter : ∀ n ∈ nextNet :: networks, currentNet.getLastAddress < n.getFirstAddress := by
    refine List.forall_mem_cons.mpr ⟨hlt, fun n hn => ?_⟩
    rcases IpAddress.compareTo_ne_gt_iff.mp (hnext n hn) with hlt | ⟨heq, -⟩ <;> omega
  have hadd := treeSetAdd_after fun d hd => h.before d hd currentNet List.mem_cons_self
  have hbody : body debug currentNet (some nextNet) networks ipsDone =
      .ok ⟨.loop nextNet, networks, ipsDone ++ [currentNet]⟩ := by
    simp only [body, hoverlap, ← hadd]
    rfl
  refine ⟨_, hbody, ?_, h.finish hafter, ?_, by rintro ⟨⟩⟩
  · simp [Generation.measure, Generation.pending]
    omega
  · rintro _ ⟨⟩
    exact hnext

/-- The next net starts where the current one starts and is not smaller. -/
theorem body_sameBase (h : Keeps v l ipsDone (currentNet :: nextNet :: networks))
    (hcurrent : ∀ n ∈ nextNet :: networks, currentNet.compareTo n ≠ .gt)
    (hnext : ∀ n ∈ networks, nextNet.compareTo n ≠ .gt) (hoverlap : overlaps currentNet nextNet = true)
    (hbase : sameBase currentNet nextNet = true) :
    ∃ s', body debug currentNet (some nextNet) networks ipsDone = .ok s' ∧
      s'.measure < weight (currentNet :: nextNet :: networks) ∧ Invariant v l s' := by
  have hpos := currentNet.weight_pos
  by_cases hincluded : currentNet.included = nextNet.included
  · have hbody : body debug currentNet (some nextNet) networks ipsDone = .ok ⟨.loop nextNet, networks, ipsDone⟩ := by
      simp only [body, hoverlap, hbase, hincluded]
      rfl
    refine ⟨_, hbody, ?_, h.forgetCurrent hnext hbase hincluded, ?_, by rintro ⟨⟩⟩
    · simp [Generation.measure, Generation.pending]
      omega
    · rintro _ ⟨⟩
      exact hnext
  · obtain ⟨hmask, hbits, hkeeps⟩ := h.splitNext hbase hincluded
    have hbody : body debug currentNet (some nextNet) networks ipsDone =
        .ok ⟨.loop currentNet, afterSplit currentNet nextNet networks, ipsDone⟩ := by
      simp only [body, hoverlap, hbase, hincluded, splitNext_ok h hbase hbits]
      rfl
    have hweight := weight_afterSplit (c := currentNet) networks hbits
    refine ⟨_, hbody, ?_, hkeeps, ?_, by rintro ⟨⟩⟩
    · simp [Generation.measure, Generation.pending]
      omega
    · rintro _ ⟨⟩ n hn
      by_cases hold : n ∈ networks
      · exact hcurrent n (List.mem_cons_of_mem _ hold)
      · have hmiddle := IpAddress.getLastAddress_firstHalf hbits
        have hfirst := IpAddress.getFirstAddress_firstHalf hbits
        have hle := IpAddress.getFirstAddress_le_getLastAddress (n := nextNet.firstHalf)
        rw [IpAddress.sameBase_iff] at hbase
        refine IpAddress.compareTo_ne_gt_iff.mpr ?_
        rcases (mem_afterSplit hn hold).2 with rfl | ⟨rfl, -⟩
        · exact .inl (by omega)
        · exact .inr ⟨hbase.1.trans hfirst.symm, hmask⟩

/-- The next net lies in the current one. -/
theorem body_within (h : Keeps v l ipsDone (currentNet :: nextNet :: networks))
    (hcurrent : ∀ n ∈ nextNet :: networks, currentNet.compareTo n ≠ .gt)
    (hnext : ∀ n ∈ networks, nextNet.compareTo n ≠ .gt) (hoverlap : overlaps currentNet nextNet = true)
    (hbase : sameBase currentNet nextNet = false) :
    ∃ s', body debug currentNet (some nextNet) networks ipsDone = .ok s' ∧
      s'.measure < weight (currentNet :: nextNet :: networks) ∧
      (clashes currentNet nextNet networks = false → Invariant v l s') := by
  have hpos := nextNet.weight_pos
  obtain ⟨hmask, hfirst, hlast⟩ := h.next_within (hcurrent nextNet List.mem_cons_self) hoverlap hbase
  by_cases hincluded : currentNet.included = nextNet.included
  · have hbody : body debug currentNet (some nextNet) networks ipsDone =
        .ok ⟨.loop currentNet, networks, ipsDone⟩ := by
      simp only [body, hoverlap, hbase, assertTrue_ok, hmask, hfirst, hlast, hincluded, decide_true]
      rfl
    refine ⟨_, hbody, ?_, fun hclash => ⟨h.dropNext hnext ?_ hincluded ?_, ?_, by rintro ⟨⟩⟩⟩
    · simp [Generation.measure, Generation.pending]
      omega
    · exact fun x hx => ⟨hfirst.le.trans hx.1, hx.2.trans hlast⟩
    · intro n hn hsame
      simp only [clashes, hoverlap, hbase, hincluded, Bool.not_false, Bool.true_and, if_true, List.any_eq_false,
        Bool.and_eq_true, decide_eq_true_eq, bne_iff_ne, not_and, not_not] at hclash
      exact hclash n hn hsame
    · rintro _ ⟨⟩ n hn
      exact hcurrent n (List.mem_cons_of_mem _ hn)
  · have hbits : currentNet.networkMask < currentNet.addressBits := by
      have hle := h.validHead.2.networkMask_le
      rw [IpAddress.addressBits, h.validHead.2.family] at hle
      rw [IpAddress.addressBits, h.validHead.1.family]
      omega
    have hbody : body debug currentNet (some nextNet) networks ipsDone =
        .ok ⟨.loop currentNet.firstHalf, withSecondHalf currentNet nextNet networks, ipsDone⟩ := by
      simp only [body, hoverlap, hbase, assertTrue_ok, hmask, hfirst, hlast, hincluded, decide_true,
        splitCurrent_ok h hbits hfirst hlast]
      rfl
    have hweight := weight_withSecondHalf (n := nextNet) networks hbits
    refine ⟨_, hbody, ?_, fun hclash => ⟨h.splitCurrent hnext hfirst hlast hbits ?_, ?_, by rintro ⟨⟩⟩⟩
    · simp [Generation.measure, Generation.pending]
      omega
    · intro hne n hn hequals
      simp only [clashes, hoverlap, hbase, hincluded, hne, Bool.not_false, Bool.true_and, if_false, ne_eq,
        not_false_eq_true, decide_true, List.any_eq_false, Bool.and_eq_true, bne_iff_ne, not_and, not_not] at hclash
      exact hclash n hn hequals
    · rintro _ ⟨⟩ n hn
      have hfirsthalf := IpAddress.getFirstAddress_firstHalf hbits
      have hmiddle := IpAddress.getLastAddress_firstHalf hbits
      have hle := IpAddress.getFirstAddress_le_getLastAddress (n := currentNet.firstHalf)
      refine IpAddress.compareTo_ne_gt_iff.mpr (.inl ?_)
      rcases mem_withSecondHalf.mp hn with rfl | hn | ⟨rfl, -⟩
      · omega
      · rcases IpAddress.compareTo_ne_gt_iff.mp (hnext n hn) with hlt | ⟨heq, -⟩ <;> omega
      · omega


theorem body_some (h : Keeps v l ipsDone (currentNet :: nextNet :: networks))
    (hcurrent : ∀ n ∈ nextNet :: networks, currentNet.compareTo n ≠ .gt)
    (hnext : ∀ n ∈ networks, nextNet.compareTo n ≠ .gt) :
    ∃ s', body debug currentNet (some nextNet) networks ipsDone = .ok s' ∧
      s'.measure < weight (currentNet :: nextNet :: networks) ∧
      (clashes currentNet nextNet networks = false → Invariant v l s') := by
  cases hoverlap : overlaps currentNet nextNet with
  | false =>
      obtain ⟨s', hs', hmeasure, hinv⟩ := body_finish debug h hnext hoverlap
      exact ⟨s', hs', hmeasure, fun _ => hinv⟩
  | true =>
      cases hbase : sameBase currentNet nextNet with
      | true =>
          obtain ⟨s', hs', hmeasure, hinv⟩ := body_sameBase debug h hcurrent hnext hoverlap hbase
          exact ⟨s', hs', hmeasure, fun _ => hinv⟩
      | false => exact body_within debug h hcurrent hnext hoverlap hbase

end

/-! ## Steps and runs -/

namespace Invariant

variable {v debug : Bool} {l : List IpAddress} {s : Generation}

theorem mem_rest {networks : List IpAddress} {n m : IpAddress} (h : n ∈ networks) :
    m ∈ networks ↔ m ∈ n :: networks.erase n :=
  (List.perm_cons_erase h).mem_iff

theorem weight_erase {networks : List IpAddress} {n : IpAddress} (h : n ∈ networks) :
    weight (n :: networks.erase n) = weight networks :=
  (weight_cons _ _).trans (totalWeight_erase h)

theorem polls_some {networks : List IpAddress} {n : IpAddress} (h : Polls networks (some n) = true) :
    n ∈ networks ∧ ∀ m ∈ networks.erase n, n.compareTo m ≠ .gt := by
  simp only [Polls, Bool.and_eq_true, List.contains_iff_mem, List.all_eq_true, bne_iff_ne] at h
  exact ⟨h.1, fun m hm => h.2 m (List.mem_of_mem_erase hm)⟩

/-- At the beginning all nets are pending. -/
theorem init (hvalid : ∀ n ∈ l, n.Valid v) (hconsistent : nets.Consistent l) :
    Invariant v l (generateIPList debug ⟨l⟩).init where
  keeps := ⟨hvalid, hconsistent, List.Pairwise.nil, by rintro d ⟨⟩, fun x b =>
    or_iff_right fun ⟨n, hn, _⟩ => absurd hn.mem List.not_mem_nil⟩
  least := by rintro _ ⟨⟩
  finished := by rintro ⟨⟩

/-- Whatever the queue returns, the loop goes on, and it comes closer to its end. -/
theorem step (debug : Bool) (h : Invariant v l s) (hphase : s.phase ≠ .done) {nextNet : Option IpAddress}
    (hpolls : Polls s.networks nextNet = true) :
    ∃ s', s.step debug nextNet = some s' ∧ s'.measure < s.measure ∧
      (s.Clashes nextNet = false → Invariant v l s') := by
  have hkeeps := h.keeps
  cases hp : s.phase with
  | done => exact absurd hp hphase
  | start =>
      rw [Generation.pending, hp] at hkeeps
      have hmeasure : s.measure = weight s.networks + 1 := by simp [Generation.measure, Generation.pending, hp]
      cases nextNet with
      | none =>
          have hnil : s.networks = [] := List.isEmpty_iff.mp hpolls
          refine ⟨{ s with phase := .done }, ?_, ?_, fun _ => ⟨hkeeps, by rintro _ ⟨⟩, fun _ => hnil⟩⟩
          · simp only [Generation.step, hpolls, hp]
            rfl
          · rw [hmeasure]
            exact Nat.lt_succ_self _
      | some n =>
          obtain ⟨hmem, hleast⟩ := polls_some hpolls
          refine ⟨{ s with phase := .loop n, networks := s.networks.erase n }, ?_, ?_, fun _ => ⟨?_, ?_, by rintro ⟨⟩⟩⟩
          · simp only [Generation.step, hpolls, hp]
            rfl
          · rw [hmeasure, ← weight_erase hmem]
            exact Nat.lt_succ_self _
          · exact hkeeps.congr fun m => (mem_rest hmem).symm
          · rintro _ ⟨⟩
            exact hleast
  | loop currentNet =>
      rw [Generation.pending, hp] at hkeeps
      dsimp only at hkeeps
      have hmeasure : s.measure = weight (currentNet :: s.networks) := by
        simp [Generation.measure, Generation.pending, hp]
      cases nextNet with
      | none =>
          have hnil : s.networks = [] := List.isEmpty_iff.mp hpolls
          rw [hnil] at hkeeps
          have hpos := currentNet.weight_pos
          have hadd := treeSetAdd_after fun d hd => hkeeps.before d hd currentNet List.mem_cons_self
          refine ⟨⟨.done, [], s.ipsDone ++ [currentNet]⟩, ?_, ?_, fun _ => ⟨?_, by rintro _ ⟨⟩, fun _ => rfl⟩⟩
          · simp only [Generation.step, hp, ← hadd, rest, hnil]
            rfl
          · rw [hmeasure, hnil]
            simpa [Generation.measure, Generation.pending] using hpos
          · exact hkeeps.finish fun n hn => absurd hn List.not_mem_nil
      | some n =>
          obtain ⟨hmem, hleast⟩ := polls_some hpolls
          have hkeeps' : Keeps v l s.ipsDone (currentNet :: n :: s.networks.erase n) := hkeeps.congr fun m => by
            rw [List.mem_cons (b := currentNet), ← mem_rest hmem, List.mem_cons]
          have hcurrent : ∀ m ∈ n :: s.networks.erase n, currentNet.compareTo m ≠ .gt :=
            fun m hm => h.least currentNet hp m ((mem_rest hmem).mpr hm)
          obtain ⟨s', hs', hlt, hinv⟩ := body_some debug hkeeps' hcurrent hleast
          refine ⟨s', ?_, ?_, fun hclash => hinv ?_⟩
          · simp only [Generation.step, hpolls, hp, rest, hs']
            rfl
          · rw [hmeasure, weight_cons, ← weight_erase hmem, ← weight_cons]
            exact hlt
          · simpa only [Generation.Clashes, hp] using hclash

end Invariant

theorem polls_of_least {networks : List IpAddress} {n : IpAddress} (hmem : n ∈ networks)
    (hleast : ∀ k ∈ networks, n.compareTo k ≠ .gt) : Polls networks (some n) = true := by
  simp only [Polls, Bool.and_eq_true, List.contains_iff_mem, List.all_eq_true, bne_iff_ne]
  exact ⟨hmem, hleast⟩

/-- The queue can always be polled. -/
theorem exists_polls (networks : List IpAddress) : ∃ e, Polls networks e = true := by
  cases networks with
  | nil => exact ⟨none, rfl⟩
  | cons n ns =>
      suffices hleast : ∃ k ∈ n :: ns, ∀ m ∈ n :: ns, k.compareTo m ≠ .gt by
        obtain ⟨k, hk, hall⟩ := hleast
        refine ⟨some k, ?_⟩
        rw [Polls, Bool.and_eq_true, List.contains_iff_mem, List.all_eq_true]
        exact ⟨hk, fun m hm => bne_iff_ne.mpr (hall m hm)⟩
      induction ns generalizing n with
      | nil =>
          refine ⟨n, List.mem_cons_self, fun m hm => ?_⟩
          rw [List.mem_singleton.mp hm]
          exact IpAddress.compareTo_self_ne_gt _
      | cons n' ns ih =>
          obtain ⟨k, hk, hall⟩ := ih n'
          by_cases hkn : k.compareTo n ≠ .gt
          · exact ⟨k, List.mem_cons_of_mem _ hk, List.forall_mem_cons.mpr ⟨hkn, hall⟩⟩
          · rw [IpAddress.compareTo_ne_gt_iff] at hkn
            refine ⟨n, List.mem_cons_self, List.forall_mem_cons.mpr ⟨?_, fun m hm => ?_⟩⟩
            · exact IpAddress.compareTo_self_ne_gt _
            · have hkm := IpAddress.compareTo_ne_gt_iff.mp (hall m hm)
              exact IpAddress.compareTo_ne_gt_iff.mpr (by omega)

end AllInSafe.Routes
