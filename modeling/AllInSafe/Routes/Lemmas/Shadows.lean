import AllInSafe.Routes.Lemmas.Fronts
import AllInSafe.Routes.Lemmas.Hidden
import AllInSafe.Routes.Lemmas.Overlays

/-!
# Runs with and without the nets that are dropped

A run does what it would do without the hidden nets: these only wait in the queue until they are dropped. Such a run
meets neither slip but the second one, and it meets that exactly where a block is doubled.
-/

namespace AllInSafe.Routes
open AllInSafe.Library

/-- The state `s'` is that of a run for the nets of `l`, and `s` has the hidden nets in its queue besides. -/
structure Shadows (v : Bool) (l : List IpAddress) (s s' : Generation) (lost : List IpAddress) : Prop where
  phase : s'.phase = s.phase
  ipsDone : s'.ipsDone = s.ipsDone
  networks : s.networks.Perm (s'.networks ++ lost)
  invariant : Invariant v l s'
  valid : ∀ n ∈ lost, n.Valid v
  hidden : ∀ n ∈ lost, Hidden s'.pending n
  shown : ∀ n ∈ s'.networks, ¬ Hidden s'.pending n

/-- The state has the hidden nets `lost` in its queue, and without them the blocks of `pending` are doubled. -/
def Shadowed (v : Bool) (l pending : List IpAddress) (s : Generation) (lost : List IpAddress) : Prop :=
  ∃ s', Shadows v l s s' lost ∧
    ∀ block included, block.Valid v → (Doubled pending block included ↔ Doubled s'.pending block included)

section

variable {v debug t : Bool} {l lost networks networks' ipsDone : List IpAddress} {c n k b : IpAddress}
  {s s' : Generation}

/-- A hidden net that is the next one lies in the current net and has its type. -/
theorem Hidden.within_current (h : Hidden (c :: networks) n) (hvalid : ∀ k ∈ c :: networks, k.Valid v)
    (hn : n.Valid v) (hleast : ∀ k ∈ networks, n.getFirstAddress ≤ k.getFirstAddress) :
    c.getFirstAddress < n.getFirstAddress ∧ n.getFirstAddress ≤ c.getLastAddress ∧ c.included = n.included := by
  obtain ⟨m, hm, hbase, henters, -⟩ := h.within
  have hlt := around_lt hn hm hbase
  have honly : ∀ k ∈ c :: networks, k.Covers (n.around m).getFirstAddress → k = c := fun k hk hx =>
    (List.mem_cons.mp hk).resolve_right fun hmem => absurd ((hleast k hmem).trans hx.1) (not_le_of_gt hlt)
  have hholds := henters.holds_of_only honly
  have hx := (hvalid c List.mem_cons_self).covers_of_holds (hn.around hm.le) hholds (hn.around_holds hm.le).1
  exact ⟨hholds.1.1.trans_lt hlt, hx.2, (eq_of_only honly henters.1).2.symm⟩

/-! ## The queue with the hidden nets -/

theorem containsNet_perm (hperm : networks.Perm (networks' ++ lost))
    (hlost : ∀ k ∈ lost, k.networkMask = n.networkMask → k.getFirstAddress ≠ n.getFirstAddress) :
    containsNet networks n = containsNet networks' n := by
  rw [Bool.eq_iff_iff, containsNet_iff, containsNet_iff]
  constructor
  · rintro ⟨k, hk, hmask, hfirst⟩
    refine ⟨k, (List.mem_append.mp (hperm.mem_iff.mp hk)).resolve_right fun hk => ?_, hmask, hfirst⟩
    exact hlost k hk hmask.symm hfirst
  · rintro ⟨k, hk, hkey⟩
    exact ⟨k, hperm.mem_iff.mpr (List.mem_append_left lost hk), hkey⟩

theorem addUnlessContained_perm (hperm : networks.Perm (networks' ++ lost))
    (hlost : ∀ k ∈ lost, k.networkMask = n.networkMask → k.getFirstAddress ≠ n.getFirstAddress) :
    (addUnlessContained networks n).Perm (addUnlessContained networks' n ++ lost) := by
  rw [addUnlessContained, addUnlessContained, containsNet_perm hperm hlost]
  split
  · exact hperm
  · have hswap : (networks' ++ [n] ++ lost).Perm (networks' ++ lost ++ [n]) := by
      rw [List.append_assoc, List.append_assoc]
      exact List.perm_append_comm.append_left networks'
    exact (hperm.append_right [n]).trans hswap.symm

theorem afterSplit_perm (hperm : networks.Perm (networks' ++ lost))
    (hlost : ∀ h, h = n.firstHalf ∨ h = n.secondHalf → ∀ k ∈ lost, k.networkMask = h.networkMask →
      k.getFirstAddress ≠ h.getFirstAddress) : (afterSplit c n networks).Perm (afterSplit c n networks' ++ lost) := by
  have hsecond := addUnlessContained_perm hperm (hlost n.secondHalf (.inr rfl))
  rw [afterSplit, afterSplit]
  split
  · exact hsecond
  · exact addUnlessContained_perm hsecond (hlost n.firstHalf (.inl rfl))

theorem withSecondHalf_perm (hperm : networks.Perm (networks' ++ lost)) :
    (withSecondHalf c n networks).Perm (withSecondHalf c n networks' ++ lost) := by
  have hswap : ∀ l, (networks' ++ l ++ lost).Perm (networks' ++ lost ++ l) := fun l => by
    rw [List.append_assoc, List.append_assoc]
    exact List.perm_append_comm.append_left networks'
  rw [withSecondHalf, withSecondHalf]
  split
  · exact (hperm.append_right [n]).trans (hswap [n]).symm
  · rw [List.append_assoc networks, List.append_assoc networks']
    exact (hperm.append_right _).trans (hswap _).symm

end

/-! ## One poll -/

theorem le_of_polls {networks : List IpAddress} {n k : IpAddress} (hpolls : Polls networks (some n) = true)
    (hk : k ∈ networks) : n.getFirstAddress ≤ k.getFirstAddress := by
  obtain ⟨hmem, hleast⟩ := Invariant.polls_some hpolls
  rcases List.mem_cons.mp ((Invariant.mem_rest hmem).mp hk) with rfl | hk
  · exact le_rfl
  · exact IpAddress.le_of_compareTo (hleast k hk)

section

variable {v debug t : Bool} {l lost networks ipsDone : List IpAddress} {c n k b : IpAddress}
  {e : Option IpAddress} {s s' u u' : Generation}

theorem Invariant.iterates (h : Invariant v l s) (hphase : s.phase = .loop c) (hpolls : Polls s.networks e = true)
    (hs : Iterates debug c (rest s.networks e) s.ipsDone e u) (hclash : s.Clashes e = false) : Invariant v l u := by
  obtain ⟨u', hu', -, hinv⟩ := h.step debug (by simp [hphase]) hpolls
  obtain ⟨-, ⟨hstart, -⟩ | ⟨c', hphase', hs'⟩⟩ := Generation.of_step hu'
  · rw [hphase] at hstart
    cases hstart
  · rw [hphase] at hphase'
    cases hphase'
    rw [hs.unique hs']
    exact hinv hclash

namespace Shadows

/-- The nets that are hidden stay so, and what is new in the queue is not. -/
theorem next (h : Shadows v l s s' lost) (hphase : u'.phase = u.phase) (hdone : u'.ipsDone = u.ipsDone)
    (hnetworks : u.networks.Perm (u'.networks ++ lost)) (hinv : Invariant v l u')
    (hiff : ∀ k, k.Valid v → n.compareTo k ≠ .gt → (Hidden s'.pending k ↔ Hidden u'.pending k))
    (hafter : ∀ k ∈ lost, n.compareTo k ≠ .gt)
    (hnew : ∀ k ∈ u'.networks, k ∈ u'.pending → (k ∈ s'.networks ∧ n.compareTo k ≠ .gt) ∨ k.IsSecondHalf ∨
      ∀ j ∈ u'.pending, k.getFirstAddress ≤ j.getFirstAddress) : Shadows v l u u' lost where
  phase := hphase
  ipsDone := hdone
  networks := hnetworks
  invariant := hinv
  valid := h.valid
  hidden k hk := (hiff k (h.valid k hk) (hafter k hk)).mp (h.hidden k hk)
  shown k hk := by
    have hpending : k ∈ u'.pending := by
      rw [Generation.pending]
      split
      · exact hk
      · exact hk
      · exact List.mem_cons_of_mem _ hk
    have hkvalid := hinv.keeps.valid k hpending
    rcases hnew k hk hpending with ⟨hold, hkafter⟩ | hsecond | hleast
    · rw [← hiff k hkvalid hkafter]
      exact h.shown k hold
    · exact not_hidden_of_isSecondHalf hsecond hkvalid
    · exact fun hhidden => lt_irrefl _ (hhidden.lt_of_least hkvalid hleast)

/-- The current net, the next one and the rest of the queue without the hidden nets. -/
theorem keeps (h : Shadows v l s s' lost) (hphase : s.phase = .loop c) (hn : n ∈ s'.networks) :
    Keeps v l s'.ipsDone (c :: n :: s'.networks.erase n) ∧
      (∀ k, k ∈ s'.pending ↔ k ∈ c :: n :: s'.networks.erase n) ∧
      ∀ k ∈ n :: s'.networks.erase n, c.compareTo k ≠ .gt := by
  have hphase' := h.phase.trans hphase
  have hkeeps := h.invariant.keeps
  have hpending : s'.pending = c :: s'.networks := by rw [Generation.pending, hphase']
  have hmem : ∀ k, k ∈ s'.pending ↔ k ∈ c :: n :: s'.networks.erase n := fun k => by
    rw [hpending, List.mem_cons (b := c), Invariant.mem_rest hn, ← List.mem_cons]
  exact ⟨hkeeps.congr fun k => (hmem k).symm, hmem,
    fun k hk => h.invariant.least c hphase' k ((Invariant.mem_rest hn).mpr hk)⟩

/-- A hidden net that is polled lies in the current net and has its type. -/
theorem lost_within (h : Shadows v l s s' lost) (hphase : s.phase = .loop c)
    (hpolls : Polls s.networks (some n) = true) (hn : n ∈ lost) :
    c.getFirstAddress < n.getFirstAddress ∧ n.getFirstAddress ≤ c.getLastAddress ∧ c.included = n.included := by
  have hpending : s'.pending = c :: s'.networks := by rw [Generation.pending, h.phase, hphase]
  have hhidden := h.hidden n hn
  rw [hpending] at hhidden
  exact hhidden.within_current (hpending ▸ h.invariant.keeps.valid) (h.valid n hn)
    fun k hk => le_of_polls hpolls (h.networks.mem_iff.mpr (List.mem_append_left lost hk))

/-- A hidden net is dropped as soon as it is polled. -/
theorem poll_lost (h : Shadows v l s s' lost) (hphase : s.phase = .loop c) (hpolls : Polls s.networks (some n) = true)
    (hn : n ∈ lost) (hs : Iterates debug c (s.networks.erase n) s.ipsDone (some n) u) :
    Shadows v l u s' (lost.erase n) := by
  obtain ⟨hfirst, hlast, hincluded⟩ := h.lost_within hphase hpolls hn
  have hnot : n ∉ s'.networks := fun hmem => h.shown n hmem (h.hidden n hn)
  have hu : u = ⟨.loop c, s.networks.erase n, s.ipsDone⟩ := by
    cases hs with
    | finish hafter =>
        have := hafter n rfl
        omega
    | forgetCurrent _ hbase =>
        have := (IpAddress.sameBase_iff.mp hbase).1
        omega
    | splitNext _ _ hother => exact absurd hincluded hother
    | dropNext => rfl
    | splitCurrent _ _ _ hother => exact absurd hincluded hother
  subst hu
  refine ⟨h.phase.trans hphase, h.ipsDone, ?_, h.invariant, fun k hk => h.valid k (List.mem_of_mem_erase hk),
    fun k hk => h.hidden k (List.mem_of_mem_erase hk), h.shown⟩
  rw [← List.erase_append_right _ hnot]
  exact h.networks.erase n

theorem nil_of_polls (h : Shadows v l s s' lost) (hpolls : Polls s.networks none = true) :
    s.networks = [] ∧ s'.networks = [] ∧ lost = [] := by
  have hnil : s.networks = [] := List.isEmpty_iff.mp hpolls
  have hperm := h.networks
  rw [hnil] at hperm
  exact ⟨hnil, List.append_eq_nil_iff.mp hperm.symm.eq_nil⟩

/-- The first poll does not return a hidden net. -/
theorem poll_start (h : Shadows v l s s' lost) (hphase : s.phase = .start) (hpolls : Polls s.networks e = true) :
    Shadowed v l s'.pending { s with phase := .ofPoll e, networks := rest s.networks e } lost := by
  have hphase' : s'.phase = .start := h.phase.trans hphase
  have hpending : s'.pending = s'.networks := by rw [Generation.pending, hphase']
  cases e with
  | none =>
      obtain ⟨hnil, hnil', rfl⟩ := h.nil_of_polls hpolls
      refine ⟨⟨.done, [], s'.ipsDone⟩, ⟨rfl, h.ipsDone, ?_, ⟨?_, ?_, fun _ => rfl⟩, ?_, ?_, ?_⟩, fun b t _ => ?_⟩
      · simp [rest, hnil]
      · have hkeeps := h.invariant.keeps
        rw [hpending, hnil'] at hkeeps
        exact hkeeps
      · rintro c ⟨⟩
      · exact fun n hn => absurd hn List.not_mem_nil
      · exact fun n hn => absurd hn List.not_mem_nil
      · exact fun n hn => absurd hn List.not_mem_nil
      · rw [hpending, hnil']
        rfl
  | some n =>
      obtain ⟨hmem, hleast⟩ := Invariant.polls_some hpolls
      have hn : n ∈ s'.networks := (List.mem_append.mp (h.networks.mem_iff.mp hmem)).resolve_right fun hlost =>
        lt_irrefl _ ((h.hidden n hlost).lt_of_least (h.valid n hlost) fun k hk =>
          le_of_polls hpolls (h.networks.mem_iff.mpr (List.mem_append_left lost (hpending ▸ hk))))
      have hperm : (s.networks.erase n).Perm (s'.networks.erase n ++ lost) := by
        rw [← List.erase_append_left _ hn]
        exact h.networks.erase n
      have hiff : ∀ k, k ∈ s'.pending ↔ k ∈ n :: s'.networks.erase n := fun k => by
        rw [hpending, Invariant.mem_rest hn]
      refine ⟨⟨.loop n, s'.networks.erase n, s'.ipsDone⟩,
        ⟨rfl, h.ipsDone, hperm, ⟨?_, ?_, by rintro ⟨⟩⟩, h.valid, ?_, ?_⟩, fun b t _ => doubled_congr hiff⟩
      · exact h.invariant.keeps.congr fun k => (hiff k).symm
      · rintro c ⟨⟩ k hk
        exact hleast k (hperm.mem_iff.mpr (List.mem_append_left lost hk))
      · exact fun k hk => (hidden_congr hiff).mp (h.hidden k hk)
      · exact fun k hk hhidden => h.shown k (List.mem_of_mem_erase hk) ((hidden_congr hiff).mpr hhidden)

end Shadows

end

/-! ## The poll of a net that is not hidden -/

/-- The loop polls a net that is not hidden. -/
structure Polled (v : Bool) (l : List IpAddress) (s s' : Generation) (lost : List IpAddress) (c n : IpAddress) :
    Prop where
  shadows : Shadows v l s s' lost
  phase : s.phase = .loop c
  polls : Polls s.networks (some n) = true
  mem : n ∈ s'.networks

namespace Polled

variable {v debug : Bool} {l lost : List IpAddress} {c n k : IpAddress} {s s' u' : Generation}

section

variable (h : Polled v l s s' lost c n)

include h

theorem keeps : Keeps v l s'.ipsDone (c :: n :: s'.networks.erase n) :=
  (h.shadows.keeps h.phase h.mem).1

theorem mem_pending (k : IpAddress) : k ∈ s'.pending ↔ k ∈ c :: n :: s'.networks.erase n :=
  (h.shadows.keeps h.phase h.mem).2.1 k

theorem current : ∀ k ∈ n :: s'.networks.erase n, c.compareTo k ≠ .gt :=
  (h.shadows.keeps h.phase h.mem).2.2

theorem perm : (s.networks.erase n).Perm (s'.networks.erase n ++ lost) := by
  rw [← List.erase_append_left _ h.mem]
  exact h.shadows.networks.erase n

theorem next : ∀ k ∈ s'.networks.erase n, n.compareTo k ≠ .gt :=
  fun k hk => (Invariant.polls_some h.polls).2 k (h.perm.mem_iff.mpr (List.mem_append_left lost hk))

theorem after : ∀ k ∈ lost, n.compareTo k ≠ .gt :=
  fun k hk => (Invariant.polls_some h.polls).2 k (h.perm.mem_iff.mpr (List.mem_append_right _ hk))

theorem shown : ¬ Hidden (c :: n :: s'.networks.erase n) n := by
  rw [← hidden_congr h.mem_pending]
  exact h.shadows.shown n h.mem

theorem old (hk : k ∈ s'.networks.erase n) : k ∈ s'.networks ∧ n.compareTo k ≠ .gt :=
  ⟨List.mem_of_mem_erase hk, h.next k hk⟩

theorem invariant (hs : Iterates false c (s'.networks.erase n) s'.ipsDone (some n) u')
    (hclash : clashes c n (s'.networks.erase n) = false) : Invariant v l u' := by
  have hphase : s'.phase = .loop c := h.shadows.phase.trans h.phase
  have hpolls : Polls s'.networks (some n) = true := polls_of_least h.mem fun k hk => by
    rcases List.mem_cons.mp ((Invariant.mem_rest h.mem).mp hk) with rfl | hk
    · exact IpAddress.compareTo_self_ne_gt _
    · exact h.next k hk
  exact h.shadows.invariant.iterates hphase hpolls hs (by simpa only [Generation.Clashes, hphase] using hclash)

/-! ### What the five cases do -/

theorem finish (hlt : c.getLastAddress < n.getFirstAddress) :
    Shadowed v l s'.pending ⟨.loop n, s.networks.erase n, treeSetAdd c s.ipsDone⟩ lost := by
  have hvalid := h.keeps.valid
  have hall : ∀ k ∈ n :: s'.networks.erase n, c.getLastAddress < k.getFirstAddress :=
    fun k hk => hlt.trans_le (Keeps.next_least h.next k hk)
  refine ⟨⟨.loop n, s'.networks.erase n, treeSetAdd c s'.ipsDone⟩, h.shadows.next rfl (by rw [h.shadows.ipsDone]) h.perm
    (h.invariant (.finish fun k hk => by cases hk; exact hlt) ?_) (fun k hk hafter => ?_) h.after
    (fun k hk _ => .inl (h.old hk)), fun b t hb => (doubled_congr h.mem_pending).trans (doubled_finish hvalid hall hb)⟩
  · simp [clashes, overlaps, hlt]
  · exact (hidden_congr h.mem_pending).trans
      (hidden_finish hvalid hall hk (hlt.trans_le (IpAddress.le_of_compareTo hafter)))

theorem forgetCurrent (hoverlap : n.getFirstAddress ≤ c.getLastAddress) (hbase : sameBase c n = true)
    (hincluded : c.included = n.included) :
    Shadowed v l s'.pending ⟨.loop n, s.networks.erase n, s.ipsDone⟩ lost := by
  have hyields := h.keeps.yields_current h.current h.next hbase hincluded
  have hmask := (IpAddress.sameBase_iff.mp hbase).2
  have hfirst := (IpAddress.sameBase_iff.mp hbase).1
  refine ⟨⟨.loop n, s'.networks.erase n, s'.ipsDone⟩, h.shadows.next rfl h.shadows.ipsDone h.perm
    (h.invariant (.forgetCurrent hoverlap hbase hincluded) ?_) (fun k hk hafter => ?_) h.after
    (fun k hk _ => .inl (h.old hk)), fun b t hb => (doubled_congr h.mem_pending).trans
      (hyields.doubled_iff h.keeps.valid h.keeps.consistent hb)⟩
  · simp [clashes, hbase]
  · refine (hidden_congr h.mem_pending).trans (hyields.hidden_iff h.keeps.valid h.keeps.consistent hk ?_)
    rw [IpAddress.compareTo_ne_gt_iff] at hafter ⊢
    omega

theorem splitNext (hoverlap : n.getFirstAddress ≤ c.getLastAddress) (hbase : sameBase c n = true)
    (hincluded : c.included ≠ n.included) :
    Shadowed v l s'.pending ⟨.loop c, afterSplit c n (s.networks.erase n), s.ipsDone⟩ lost := by
  have hhalves := (h.keeps.halves_next hbase hincluded).2
  have hn := h.keeps.validHead.2
  have hleast : ∀ k ∈ c :: n :: s'.networks.erase n, n.getFirstAddress ≤ k.getFirstAddress :=
    fun k hk => (IpAddress.sameBase_iff.mp hbase).1 ▸ Keeps.current_least h.current k hk
  refine ⟨⟨.loop c, afterSplit c n (s'.networks.erase n), s'.ipsDone⟩, h.shadows.next rfl h.shadows.ipsDone
    (afterSplit_perm h.perm fun m hm k hk hkmask hkfirst => ?_)
    (h.invariant (.splitNext hoverlap hbase hincluded (by rintro ⟨⟩)) ?_)
    (fun k hk _ => (hidden_congr h.mem_pending).trans (h.keeps.hidden_splitNext h.current hbase hincluded hk)) h.after
    fun k hk _ => ?_, fun b t hb => (doubled_congr h.mem_pending).trans
      (h.keeps.doubled_splitNext h.current hbase hincluded hb)⟩
  · -- A hidden net is neither half: it starts later, and something larger starts with it.
    have hhidden := (hidden_congr h.mem_pending).mp (h.shadows.hidden k hk)
    have hkvalid := h.shadows.valid k hk
    rcases hm with rfl | rfl
    · have hlt := hhidden.lt_of_least hkvalid hleast
      rw [hkfirst, n.firstHalf_getFirstAddress] at hlt
      exact lt_irrefl _ hlt
    · exact hhidden.ne_secondHalf hkvalid hn hhalves.bits hkmask hkfirst
  · simp [clashes, hbase]
  · by_cases hkold : k ∈ s'.networks.erase n
    · exact .inl (h.old hkold)
    · refine .inr ?_
      rcases (mem_afterSplit hk hkold).2 with rfl | ⟨rfl, -⟩
      · exact .inl (hn.isSecondHalf hhalves.bits)
      · refine .inr fun j hj => ?_
        rw [n.firstHalf_getFirstAddress]
        exact hhalves.least hleast j hj

section

variable (hoverlap : n.getFirstAddress ≤ c.getLastAddress) (hbase : sameBase c n = false)

include hoverlap hbase

theorem within : c.networkMask < n.networkMask ∧ c.getFirstAddress < n.getFirstAddress ∧
    n.getLastAddress ≤ c.getLastAddress :=
  h.keeps.next_within (h.current n List.mem_cons_self) (by simp [overlaps, hoverlap]) hbase

theorem dropNext (hincluded : c.included = n.included) :
    Shadowed v l s'.pending ⟨.loop c, s.networks.erase n, s.ipsDone⟩ lost := by
  obtain ⟨hmask, hfirst, -⟩ := h.within hoverlap hbase
  have hholds : holders.Covers c n := ⟨⟨hfirst.le, hoverlap⟩, hmask.le⟩
  have hyields := h.keeps.yields_next h.next hfirst hholds hincluded h.shown
  have hvalid := h.keeps.valid
  have hconsistent := h.keeps.consistent
  refine ⟨⟨.loop c, s'.networks.erase n, s'.ipsDone⟩, h.shadows.next rfl h.shadows.ipsDone h.perm
    (h.invariant (.dropNext hoverlap hbase (by rintro ⟨⟩) hincluded) ?_)
    (fun k hk hafter => (hidden_congr h.mem_pending).trans (hyields.hidden_iff hvalid hconsistent hk hafter)) h.after
    (fun k hk _ => .inl (h.old hk)),
    fun b t hb => (doubled_congr h.mem_pending).trans (hyields.doubled_iff hvalid hconsistent hb)⟩
  -- The net is not hidden: what starts with it has its type.
  rw [clashes, if_pos hincluded, Bool.and_eq_false_iff]
  refine .inr (List.any_eq_false.mpr fun k hk hany => ?_)
  rw [Bool.and_eq_true, decide_eq_true_eq, bne_iff_ne] at hany
  refine hany.2 (h.keeps.included_of_not_hidden h.next hfirst hholds hincluded h.shown hk ?_ ?_)
  · rw [← hany.1]
    exact IpAddress.covers_getFirstAddress
  · rcases IpAddress.compareTo_ne_gt_iff.mp (h.next k hk) with hlt | ⟨-, hle⟩
    · omega
    · exact hle

theorem bits : c.networkMask < c.addressBits := by
  obtain ⟨hc, hn⟩ := h.keeps.validHead
  have hle := hn.networkMask_le
  rw [IpAddress.addressBits, hn.family, ← hc.family, ← IpAddress.addressBits] at hle
  exact (h.within hoverlap hbase).1.trans_le hle

theorem splitCurrent (hincluded : c.included ≠ n.included) (hoverlays : overlays c n (s.networks.erase n) = false) :
    Shadowed v l s'.pending ⟨.loop c.firstHalf, withSecondHalf c n (s.networks.erase n), s.ipsDone⟩ lost := by
  obtain ⟨hmask, hfirst, hlast⟩ := h.within hoverlap hbase
  have hbits := h.bits hoverlap hbase
  have hoverlap' : overlaps c n = true := by simp [overlaps, hoverlap]
  have hsame : c.secondHalf.networkMask ≠ n.networkMask → ∀ k ∈ s'.networks.erase n,
      c.secondHalf.equals k = true → k.included = c.included := by
    intro hne k hk hequals
    by_contra hother
    have hmem : k ∈ s.networks.erase n := h.perm.mem_iff.mpr (List.mem_append_left lost hk)
    have htrue : overlays c n (s.networks.erase n) = true := by
      simp only [overlays, hoverlap', hbase, bne_iff_ne.mpr hincluded, Bool.not_false, Bool.true_and]
      rw [Bool.and_eq_true, List.any_eq_true]
      exact ⟨decide_eq_true hne, k, hmem, by simp [hequals, hother]⟩
    rw [hoverlays] at htrue
    cases htrue
  refine ⟨⟨.loop c.firstHalf, withSecondHalf c n (s'.networks.erase n), s'.ipsDone⟩, h.shadows.next rfl
    h.shadows.ipsDone (withSecondHalf_perm h.perm)
    (h.invariant (.splitCurrent hoverlap hbase (by rintro ⟨⟩) hincluded (by rintro ⟨⟩)) ?_)
    (fun k hk hafter => (hidden_congr h.mem_pending).trans
      (h.keeps.hidden_splitCurrent h.current h.next hfirst hlast hmask hbits hincluded hsame hk hafter)) h.after
    fun k hk _ => ?_, fun b t hb => (doubled_congr h.mem_pending).trans
      (h.keeps.doubled_splitCurrent h.current h.next hfirst hlast hbits hsame hb)⟩
  · rw [clashes, if_neg hincluded, Bool.and_eq_false_iff (y := decide _ && _), Bool.and_eq_false_iff (x := decide _),
      List.any_eq_false]
    refine .inr (or_iff_not_imp_left.mpr fun hne k hk hany => ?_)
    rw [Bool.and_eq_true, bne_iff_ne] at hany
    exact hany.2 (hsame (by simpa using hne) k hk hany.1)
  · rcases mem_withSecondHalf.mp hk with rfl | hk | ⟨rfl, -⟩
    · exact .inl ⟨h.mem, IpAddress.compareTo_self_ne_gt _⟩
    · exact .inl (h.old hk)
    · exact .inr (.inl (h.keeps.validHead.1.isSecondHalf hbits))

end

/-- Any other net is treated as it would be without the hidden ones. -/
theorem shadowed {u : Generation} (hs : Iterates debug c (s.networks.erase n) s.ipsDone (some n) u)
    (hoverlays : overlays c n (s.networks.erase n) = false) : Shadowed v l s'.pending u lost := by
  cases hs with
  | finish hafter => exact h.finish (hafter n rfl)
  | forgetCurrent hoverlap hbase hincluded => exact h.forgetCurrent hoverlap hbase hincluded
  | splitNext hoverlap hbase hincluded => exact h.splitNext hoverlap hbase hincluded
  | dropNext hoverlap hbase _ hincluded => exact h.dropNext hoverlap hbase hincluded
  | splitCurrent hoverlap hbase _ hincluded => exact h.splitCurrent hoverlap hbase hincluded hoverlays

end

end Polled

end AllInSafe.Routes
