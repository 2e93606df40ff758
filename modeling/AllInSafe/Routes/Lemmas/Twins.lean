import AllInSafe.Routes.Lemmas.Overlays

/-!
# Equal nets of different types in the queue

Once the queue has two equal nets of different types, with no larger pending net over them, some order of the polls
leads a debug build to an assertion that fails: the loop comes to one of the two and splits the other one, whose first
half is then smaller than the current net and has the same base.
-/

namespace AllInSafe.Routes
open AllInSafe.Library

structure Twins (s : Generation) (m m' : IpAddress) : Prop where
  mem : m ∈ s.networks
  mem' : m' ∈ s.networks
  networkMask : m.networkMask = m'.networkMask
  first : m.getFirstAddress = m'.getFirstAddress
  included : m.included ≠ m'.included
  largest : ∀ n ∈ s.pending, n.Covers m.getFirstAddress → m.networkMask ≤ n.networkMask

/-- A later poll of the run stops a debug build. -/
def Generation.WillFail (space : NetworkSpace) (s : Generation) : Prop :=
  ∃ es t e, (generateIPList true space).runFrom s es = some t ∧ t.Fails e = true

section

variable {space : NetworkSpace} {v : Bool} {s t : Generation} {c m m' n : IpAddress}

theorem Generation.WillFail.of_fails {e : Option IpAddress} (h : s.Fails e = true) : s.WillFail space :=
  ⟨[], s, e, rfl, h⟩

theorem Generation.WillFail.of_step {e : Option IpAddress} (ht : s.step true e = some t) (h : t.WillFail space) :
    s.WillFail space := by
  obtain ⟨es, u, e', hu, hfails⟩ := h
  exact ⟨e :: es, u, e', Machine.runFrom_cons.mpr ⟨t, ht, hu⟩, hfails⟩

theorem Twins.symm (h : Twins s m m') : Twins s m' m where
  mem := h.mem'
  mem' := h.mem
  networkMask := h.networkMask.symm
  first := h.first.symm
  included := h.included.symm
  largest n hn hx := by
    rw [← h.networkMask]
    exact h.largest n hn (h.first ▸ hx)

/-- The current net meets a smaller one with the same base. -/
theorem fails_of_smaller (hphase : s.phase = .loop c) (hpolls : Polls s.networks (some n) = true)
    (hfirst : n.getFirstAddress = c.getFirstAddress) (hmask : c.networkMask < n.networkMask) :
    s.Fails (some n) = true := by
  have hbase : sameBase c n ≠ true := fun h => by
    have := (IpAddress.sameBase_iff.mp h).2
    omega
  have hoverlap : n.getFirstAddress ≤ c.getLastAddress := hfirst.le.trans IpAddress.getFirstAddress_le_getLastAddress
  rcases Generation.fails_or_iterates hphase hpolls with hfails | ⟨t, -, ht⟩
  · exact hfails
  · cases ht with
    | finish hafter => exact absurd (hafter n rfl) (not_lt_of_ge hoverlap)
    | forgetCurrent _ h => exact absurd h hbase
    | splitNext _ h => exact absurd h hbase
    | dropNext _ _ hlt => exact absurd (hlt rfl) (by omega)
    | splitCurrent _ _ hlt => exact absurd (hlt rfl) (by omega)

/-- The current net is one of the two and the other one can be polled next. -/
theorem willFail_of_current (hphase : s.phase = .loop m) (hm : m.Valid v) (hm' : m'.Valid v) (hmem : m' ∈ s.networks)
    (hnetworkMask : m.networkMask = m'.networkMask) (hfirst : m.getFirstAddress = m'.getFirstAddress)
    (hincluded : m.included ≠ m'.included) (hleast : ∀ k ∈ s.networks, m.compareTo k ≠ .gt) : s.WillFail space := by
  have hpolls : Polls s.networks (some m') = true := polls_of_least hmem fun k hk => by
    rw [IpAddress.compareTo_ne_gt_iff, ← hfirst, ← hnetworkMask]
    exact IpAddress.compareTo_ne_gt_iff.mp (hleast k hk)
  have hbase : sameBase m m' = true := IpAddress.sameBase_iff.mpr ⟨hfirst, hnetworkMask.ge⟩
  rcases Generation.fails_or_iterates hphase hpolls with hfails | ⟨t, ht, hs⟩
  · exact .of_fails hfails
  · refine .of_step ht ?_
    cases hs with
    | finish hafter =>
        have := hafter m' rfl
        have := IpAddress.getFirstAddress_le_getLastAddress (n := m)
        omega
    | forgetCurrent _ _ h => exact absurd h hincluded
    | dropNext _ h => rw [hbase] at h; cases h
    | splitCurrent _ h => rw [hbase] at h; cases h
    | splitNext _ _ _ hsplit =>
        -- Its first half is put back, and it is the next one.
        have hbits := IpAddress.networkMask_lt_of_split (hsplit rfl)
        have hhalf := IpAddress.getFirstAddress_firstHalf hbits
        have hmiddle := IpAddress.getLastAddress_firstHalf hbits
        have hle := IpAddress.getFirstAddress_le_getLastAddress (n := m'.secondHalf)
        have hlast := IpAddress.getLastAddress_secondHalf hbits
        have hsecond := IpAddress.lt_secondHalf_getFirstAddress m'
        have hequal := hm.getLastAddress_eq_of_equals hm' hfirst hnetworkMask
        have hmask : m'.firstHalf.networkMask = m'.networkMask + 1 := rfl
        have hadded : m'.firstHalf ∈ afterSplit m m' (s.networks.erase m') := by
          rcases @half_afterSplit (s.networks.erase m') m m' hbits _ (.inl rfl) with hin | hin | ⟨-, hin⟩
          · exact hin
          · obtain ⟨k, hk, hkmask, hkfirst⟩ := containsNet_iff.mp hin
            rcases IpAddress.compareTo_ne_gt_iff.mp (hleast k (List.mem_of_mem_erase hk)) with hlt | ⟨-, hkle⟩
            · omega
            · omega
          · omega
        refine @Generation.WillFail.of_fails _ _ (some m'.firstHalf)
          (fails_of_smaller rfl (polls_of_least hadded fun k hk => ?_) ?_ ?_)
        · rw [IpAddress.compareTo_ne_gt_iff, hhalf, ← hfirst]
          by_cases hold : k ∈ s.networks.erase m'
          · rcases IpAddress.compareTo_ne_gt_iff.mp (hleast k (List.mem_of_mem_erase hold)) with hlt | ⟨heq, hkle⟩
            · exact .inl hlt
            · exact .inr ⟨heq, by omega⟩
          · rcases (mem_afterSplit hk hold).2 with rfl | ⟨rfl, -⟩
            · exact .inl (by omega)
            · exact .inr ⟨by omega, le_rfl⟩
        · omega
        · omega

namespace Twins

/-- An iteration with another net keeps the two, and nothing larger comes over them. -/
theorem iterates (h : Twins s m m') (hphase : s.phase = .loop c)
    (hpolls : Polls s.networks (some n) = true) (hn : m ≠ n) (hn' : m' ≠ n)
    (ht : Iterates true c (s.networks.erase n) s.ipsDone (some n) t) : Twins t m m' := by
  have hmem := (Invariant.polls_some hpolls).1
  have hin : m ∈ s.networks.erase n := (List.mem_erase_of_ne hn).mpr h.mem
  have hin' : m' ∈ s.networks.erase n := (List.mem_erase_of_ne hn').mpr h.mem'
  have hrest : ∀ k ∈ s.networks.erase n, k.Covers m.getFirstAddress → m.networkMask ≤ k.networkMask :=
    fun k hk => h.largest k (Generation.mem_pending hphase (List.mem_of_mem_erase hk))
  have hnext := h.largest n (Generation.mem_pending hphase hmem)
  have hcurrent := h.largest c (Generation.current_mem hphase)
  have hhalf : ∀ k ∈ s.pending, k.secondHalf.getLastAddress = k.getLastAddress →
      ∀ j, j = k.firstHalf ∨ j = k.secondHalf → j.Covers m.getFirstAddress → m.networkMask ≤ j.networkMask := by
    intro k hk hsplit j hj hx
    have hbits := IpAddress.networkMask_lt_of_split hsplit
    have hkx : k.Covers m.getFirstAddress :=
      (IpAddress.covers_halves hbits).mpr (by rcases hj with rfl | rfl <;> simp [hx])
    have hle := h.largest k hk hkx
    rcases hj with rfl | rfl
    · exact hle.trans (Nat.le_succ _)
    · exact hle.trans (Nat.le_succ _)
  cases ht with
  | finish => exact ⟨hin, hin', h.networkMask, h.first, h.included, List.forall_mem_cons.mpr ⟨hnext, hrest⟩⟩
  | forgetCurrent => exact ⟨hin, hin', h.networkMask, h.first, h.included, List.forall_mem_cons.mpr ⟨hnext, hrest⟩⟩
  | dropNext => exact ⟨hin, hin', h.networkMask, h.first, h.included, List.forall_mem_cons.mpr ⟨hcurrent, hrest⟩⟩
  | splitNext _ _ _ hsplit =>
      refine ⟨mem_afterSplit_of_mem hin, mem_afterSplit_of_mem hin', h.networkMask, h.first, h.included,
        List.forall_mem_cons.mpr ⟨hcurrent, fun k hk => ?_⟩⟩
      by_cases hold : k ∈ s.networks.erase n
      · exact hrest k hold
      · refine hhalf n (Generation.mem_pending hphase hmem) (hsplit rfl) k ?_
        exact (mem_afterSplit hk hold).2.symm.imp_left And.left
  | splitCurrent _ _ _ _ hsplit =>
      have hsub : ∀ k ∈ s.networks.erase n, k ∈ withSecondHalf c n (s.networks.erase n) :=
        fun k hk => mem_withSecondHalf.mpr (.inr (.inl hk))
      have hparts := hhalf c (Generation.current_mem hphase) (hsplit rfl)
      refine ⟨hsub m hin, hsub m' hin', h.networkMask, h.first, h.included,
        List.forall_mem_cons.mpr ⟨hparts _ (.inl rfl), fun k hk => ?_⟩⟩
      rcases mem_withSecondHalf.mp hk with rfl | hk | ⟨rfl, -⟩
      · exact hnext
      · exact hrest k hk
      · exact hparts _ (.inr rfl)

/-- One of the two is the least of the queue and has the type of the current net: it takes its place. -/
theorem willFail_of_least (h : Twins s m m') (hsorted : Sorted v s) (hrange : s.InRange) (hphase : s.phase = .loop c)
    (hleast : ∀ k ∈ s.networks, m.compareTo k ≠ .gt) (hincluded : c.included = m.included) : s.WillFail space := by
  have hvalid : ∀ k ∈ s.pending, k.Valid v := fun k hk => ⟨hsorted.family k hk, (hrange k (.inr hk)).networkMask_le⟩
  have hm := hvalid m (Generation.mem_pending hphase h.mem)
  have hm' := hvalid m' (Generation.mem_pending hphase h.mem')
  have hne : m' ≠ m := fun heq => h.included (by rw [heq])
  have hin : m' ∈ s.networks.erase m := (List.mem_erase_of_ne hne).mpr h.mem'
  have hrest : ∀ k ∈ s.networks.erase m, m.compareTo k ≠ .gt := fun k hk => hleast k (List.mem_of_mem_erase hk)
  rcases Generation.fails_or_iterates hphase (polls_of_least h.mem hleast) with hfails | ⟨t, ht, hs⟩
  · exact .of_fails hfails
  · refine .of_step ht ?_
    -- A current net that overlaps is not larger than the two, and so has their base.
    have hbase : m.getFirstAddress ≤ c.getLastAddress → sameBase c m = true := by
      intro hoverlap
      have hfirst := (hsorted.follows c hphase m h.mem).1
      have hx : c.Covers m.getFirstAddress := ⟨hfirst, hoverlap⟩
      have hmask := h.largest c (Generation.current_mem hphase) hx
      have hnested := hm.nested (hvalid c (Generation.current_mem hphase)) IpAddress.covers_getFirstAddress hx hmask
      exact IpAddress.sameBase_iff.mpr ⟨le_antisymm hfirst hnested.1, hmask⟩
    cases hs with
    | finish => exact willFail_of_current rfl hm hm' hin h.networkMask h.first h.included hrest
    | forgetCurrent => exact willFail_of_current rfl hm hm' hin h.networkMask h.first h.included hrest
    | splitNext _ _ hother => exact absurd hincluded hother
    | dropNext hoverlap hother => rw [hbase hoverlap] at hother; cases hother
    | splitCurrent hoverlap hother => rw [hbase hoverlap] at hother; cases hother

theorem willFail (h : Twins s m m') (hsorted : Sorted v s) (hrange : s.InRange) (hphase : s.phase = .loop c) :
    s.WillFail space := by
  induction hpotential : s.potential using Nat.strong_induction_on generalizing s c with
  | h k ih =>
      by_cases hleast : ∀ n ∈ s.networks, m.compareTo n ≠ .gt
      · have hleast' : ∀ n ∈ s.networks, m'.compareTo n ≠ .gt := fun n hn => by
          rw [IpAddress.compareTo_ne_gt_iff, ← h.first, ← h.networkMask]
          exact IpAddress.compareTo_ne_gt_iff.mp (hleast n hn)
        by_cases hincluded : c.included = m.included
        · exact h.willFail_of_least hsorted hrange hphase hleast hincluded
        · refine h.symm.willFail_of_least hsorted hrange hphase hleast' ?_
          have hother := h.included
          revert hincluded hother
          cases c.included <;> cases m.included <;> cases m'.included <;> simp
      · obtain ⟨e, hpolls⟩ := exists_polls s.networks
        rcases Generation.fails_or_iterates hphase hpolls with hfails | ⟨t, ht, hs⟩
        · exact .of_fails hfails
        · cases e with
          | none =>
              have hnil : s.networks = [] := List.isEmpty_iff.mp hpolls
              exact absurd h.mem (by simp [hnil])
          | some n =>
              obtain ⟨hmem, hrest⟩ := Invariant.polls_some hpolls
              have hall : ∀ k ∈ s.networks, n.compareTo k ≠ .gt := by
                intro k hk
                rcases List.mem_cons.mp ((Invariant.mem_rest hmem).mp hk) with rfl | hk
                · exact IpAddress.compareTo_self_ne_gt _
                · exact hrest k hk
              have hne : m ≠ n := fun heq => hleast (heq ▸ hall)
              have hne' : m' ≠ n := fun heq => hleast fun k hk => by
                rw [IpAddress.compareTo_ne_gt_iff, h.first, h.networkMask, heq]
                exact IpAddress.compareTo_ne_gt_iff.mp (hall k hk)
              have htwins := h.iterates hphase hpolls hne hne' hs
              have hlt := hsorted.step_potential_lt ht
              obtain ⟨c', hphase'⟩ : ∃ c', t.phase = .loop c' := by cases hs <;> exact ⟨_, rfl⟩
              exact .of_step ht (ih _ (hpotential ▸ hlt) htwins (hsorted.step ht) (hrange.step ht) hphase' rfl)

end Twins

/-- A second half that is put beside an equal net of the other type. -/
theorem willFail_of_overlays (h : s.Overlays (some n) = true) (hsorted : Sorted v s) (hrange : s.InRange) :
    s.WillFail space := by
  cases hphase : s.phase with
  | start => simp [Generation.Overlays, hphase] at h
  | done => simp [Generation.Overlays, hphase] at h
  | loop c =>
      simp only [Generation.Overlays, overlays, hphase, Bool.and_eq_true, Bool.not_eq_true', bne_iff_ne, ne_eq,
        decide_eq_true_eq, List.any_eq_true] at h
      obtain ⟨hpolls, ⟨⟨⟨hoverlap, hbase⟩, hincluded⟩, hmask⟩, m', hm', hequals, hother⟩ := h
      have hvalid : ∀ k ∈ s.pending, k.Valid v := fun k hk => ⟨hsorted.family k hk, (hrange k (.inr hk)).networkMask_le⟩
      obtain ⟨hmem, hrest⟩ := Invariant.polls_some hpolls
      have hin : ∀ k ∈ s.networks.erase n, k ∈ s.pending :=
        fun k hk => Generation.mem_pending hphase (List.mem_of_mem_erase hk)
      rcases Generation.fails_or_iterates hphase hpolls with hfails | ⟨t, ht, hs⟩
      · exact .of_fails hfails
      · have hsorted' := hsorted.step ht
        have hrange' := hrange.step ht
        refine .of_step ht ?_
        cases hs with
        | finish hafter => simp [overlaps, hafter n rfl] at hoverlap
        | forgetCurrent _ h => rw [hbase] at h; cases h
        | splitNext _ h => rw [hbase] at h; cases h
        | dropNext _ _ _ h => exact absurd h hincluded
        | splitCurrent _ _ hfirst _ hsplit =>
            have hbits := IpAddress.networkMask_lt_of_split (hsplit rfl)
            have hx : c.Covers c.secondHalf.getFirstAddress :=
              (IpAddress.covers_halves hbits).mpr (.inr IpAddress.covers_getFirstAddress)
            -- Every other net starts after the current one, and so lies in it.
            have hafter : ∀ k ∈ s.pending, n.getFirstAddress ≤ k.getFirstAddress →
                k.Covers c.secondHalf.getFirstAddress → c.secondHalf.networkMask ≤ k.networkMask := by
              intro k hk hle hkx
              by_contra hlt
              have hmaskle : k.networkMask ≤ c.networkMask := Nat.lt_succ_iff.mp (not_le.mp hlt)
              have hnested := (hvalid k hk).nested (hvalid c (Generation.current_mem hphase)) hkx hx hmaskle
              have := hfirst rfl
              omega
            obtain ⟨hequalmask, hequalfirst⟩ := IpAddress.equals_iff.mp hequals
            have htwins : Twins ⟨.loop c.firstHalf, withSecondHalf c n (s.networks.erase n), s.ipsDone⟩
                c.secondHalf m' := by
              refine ⟨mem_withSecondHalf.mpr (.inr (.inr ⟨rfl, hmask⟩)), mem_withSecondHalf.mpr (.inr (.inl hm')),
                hequalmask, hequalfirst.symm, fun heq => hother heq.symm,
                List.forall_mem_cons.mpr ⟨fun _ => le_rfl, fun k hk => ?_⟩⟩
              rcases mem_withSecondHalf.mp hk with rfl | hk | ⟨rfl, -⟩
              · exact hafter k (Generation.mem_pending hphase hmem) le_rfl
              · exact hafter k (hin k hk) (IpAddress.follows_of_compareTo (hrest k hk)).1
              · exact fun _ => le_rfl
            exact htwins.willFail hsorted' hrange' rfl

end

end AllInSafe.Routes
