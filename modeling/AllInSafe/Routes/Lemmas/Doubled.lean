import AllInSafe.Routes.Lemmas.Shadows

/-!
# Runs that put no second half beside an equal net

Such a run does what it would do for the nets that remain, and these are resolved by what it returns. It exists for
every order of the polls exactly when none of the blocks is doubled by the nets that remain.
-/

namespace AllInSafe.Routes
open AllInSafe.Library

/-! ## One step -/

section

variable {v debug : Bool} {l pending lost : List IpAddress} {c n : IpAddress} {e : Option IpAddress}
  {s s' u : Generation}

/-- The last net is done. -/
theorem Shadows.poll_end (h : Shadows v l s s' lost) (hphase : s.phase = .loop c)
    (hpolls : Polls s.networks none = true) (hs : Iterates debug c s.networks s.ipsDone none u) :
    Shadowed v l s'.pending u lost := by
  obtain ⟨hnil, hnil', rfl⟩ := h.nil_of_polls hpolls
  have hphase' : s'.phase = .loop c := h.phase.trans hphase
  have hpending : s'.pending = [c] := by rw [Generation.pending, hphase', hnil']
  have hs' : Iterates debug c [] s'.ipsDone none ⟨.done, [], treeSetAdd c s'.ipsDone⟩ := .finish (by rintro _ ⟨⟩)
  have hinv := h.invariant.iterates (e := none) hphase' (by rw [hnil']; rfl) (by rw [rest, hnil']; exact hs') rfl
  cases hs with
  | finish =>
      refine ⟨⟨.done, [], treeSetAdd c s'.ipsDone⟩, ⟨rfl, by rw [h.ipsDone], ?_, hinv, ?_, ?_, ?_⟩, fun b t hb => ?_⟩
      · simp [hnil]
      · exact fun n hn => absurd hn List.not_mem_nil
      · exact fun n hn => absurd hn List.not_mem_nil
      · exact fun n hn => absurd hn List.not_mem_nil
      · rw [hpending]
        exact doubled_finish (hpending ▸ h.invariant.keeps.valid) (fun n hn => absurd hn List.not_mem_nil) hb

/-- As long as no second half is put beside an equal net, a step only drops hidden nets, and it doubles nothing. -/
theorem Shadowed.step (h : Shadowed v l pending s lost) (hstep : s.step debug e = some u)
    (hoverlays : s.Overlays e = false) : ∃ lost', (∀ n ∈ lost', n ∈ lost) ∧ Shadowed v l pending u lost' := by
  obtain ⟨s', hs', hpending⟩ := h
  suffices ∃ lost', (∀ n ∈ lost', n ∈ lost) ∧ Shadowed v l s'.pending u lost' by
    obtain ⟨lost', hsub, u', hu', hiff⟩ := this
    exact ⟨lost', hsub, u', hu', fun b t hb => (hpending b t hb).trans (hiff b t hb)⟩
  obtain ⟨hpolls, ⟨hphase, rfl⟩ | ⟨c, hphase, hiterates⟩⟩ := Generation.of_step hstep
  · exact ⟨lost, fun _ hn => hn, hs'.poll_start hphase hpolls⟩
  · cases e with
    | none => exact ⟨lost, fun _ hn => hn, hs'.poll_end hphase hpolls hiterates⟩
    | some n =>
        simp only [Generation.Overlays, hphase, hpolls, Bool.true_and] at hoverlays
        have hmem := (Invariant.polls_some hpolls).1
        rcases List.mem_append.mp (hs'.networks.mem_iff.mp hmem) with hn | hn
        · exact ⟨lost, fun _ hn => hn, (Polled.mk hs' hphase hpolls hn).shadowed hiterates hoverlays⟩
        · exact ⟨lost.erase n, fun _ hk => List.mem_of_mem_erase hk, s', hs'.poll_lost hphase hpolls hn hiterates,
            fun _ _ _ => Iff.rfl⟩

/-- Where a second half is put beside an equal net, the current net is doubled. -/
theorem Shadowed.doubled (h : Shadowed v l pending s lost) (hoverlays : s.Overlays (some n) = true) :
    ∃ block included, block.Valid v ∧ Doubled pending block included := by
  obtain ⟨s', hs', hpending⟩ := h
  cases hphase : s.phase with
  | start => simp [Generation.Overlays, hphase] at hoverlays
  | done => simp [Generation.Overlays, hphase] at hoverlays
  | loop c =>
      simp only [Generation.Overlays, overlays, hphase, Bool.and_eq_true, Bool.not_eq_true', bne_iff_ne, ne_eq,
        decide_eq_true_eq, List.any_eq_true] at hoverlays
      obtain ⟨hpolls, ⟨⟨⟨hoverlap, hbase⟩, hincluded⟩, hmask⟩, k, hk, hequals, hother⟩ := hoverlays
      have hmem := hs'.networks.mem_iff.mp (Invariant.polls_some hpolls).1
      have hn : n ∈ s'.networks := (List.mem_append.mp hmem).resolve_right fun hlost =>
        hincluded (hs'.lost_within hphase hpolls hlost).2.2
      have hpolled := Polled.mk hs' hphase hpolls hn
      have hoverlap' : n.getFirstAddress ≤ c.getLastAddress := by simpa [overlaps] using hoverlap
      obtain ⟨hlt, hfirst, -⟩ := hpolled.within hoverlap' hbase
      have hbits := hpolled.bits hoverlap' hbase
      have hc := hpolled.keeps.validHead.1
      obtain ⟨hkmask, hkfirst⟩ := IpAddress.equals_iff.mp hequals
      have hkmem := List.mem_append.mp (hpolled.perm.mem_iff.mp hk)
      have hkrest : k ∈ s'.networks.erase n := hkmem.resolve_right fun hlost =>
        (hs'.hidden k hlost).ne_secondHalf (hs'.valid k hlost) hc hbits hkmask.symm hkfirst
      refine ⟨c, c.included, hc, (hpending c c.included hc).mpr ((doubled_congr hpolled.mem_pending).mpr ?_)⟩
      exact hpolled.keeps.doubled_of_overlay hpolled.next hfirst hlt hbits hincluded hmask hkrest hequals hother

end

/-! ## Runs -/

/-- What the runs of a debug build keep that put no second half beside an equal net. -/
structure Tracked (v : Bool) (l : List IpAddress) (s : Generation) : Prop where
  sound : Sound v s
  shadowed : ∃ lost, (∀ n ∈ lost, n ∈ l ∧ n ∉ remaining l) ∧ Shadowed v (remaining l) (remaining l) s lost

section

variable {v debug : Bool} {l : List IpAddress} {s u : Generation} {e : Option IpAddress} {es : List (Option IpAddress)}

theorem remaining_eq (h : ∀ n ∈ l, ¬ Hidden l n) : remaining l = l := by
  have hfold : ∀ coming : List IpAddress, (∀ n ∈ coming, n ∈ l) →
      coming.foldl (fun kept n => if Hidden kept n then kept.erase n else kept) l = l := by
    intro coming hcoming
    induction coming with
    | nil => rfl
    | cons n coming ih =>
        rw [List.foldl_cons, if_neg (h n (hcoming n List.mem_cons_self))]
        exact ih fun k hk => hcoming k (List.mem_cons_of_mem n hk)
  exact hfold l fun n hn => hn

/-- A doubled block lies in a net of its type, so that there are finitely many blocks to look at. -/
theorem not_doubled_iff (hvalid : ∀ n ∈ l, n.Valid v) :
    (∀ block included, block.isV4 = v → ¬ Doubled l block included) ↔
      ∀ n ∈ l, ∀ m < n.addressBits, n.networkMask ≤ m → ∀ i < n.getLastAddress + 1 - n.getFirstAddress,
        ¬ Doubled l ⟨n.getFirstAddress + i, m, n.included, n.isV4⟩ n.included := by
  constructor
  · exact fun h n hn m _ _ i _ => h _ _ (hvalid n hn).family
  · intro h block included hv hdoubled
    have hblock : block.Valid v := ⟨hv, hdoubled.bits.le⟩
    obtain ⟨-, m, hm, hbase, -, n, hn, hvalue⟩ := id hdoubled.enters
    have hx := hn.covers.1
    rw [hbase] at hx
    have hle := hx.1
    have hlast := hx.2
    have hvalue : n.included = included := hvalue
    have hmask : n.networkMask ≤ block.networkMask := hn.covers.2.trans (Nat.le_of_lt_succ hm)
    have haddress : n.addressBits = block.addressBits := by
      rw [IpAddress.addressBits, IpAddress.addressBits, (hvalid n hn.mem).family, hv]
    refine h n hn.mem block.networkMask (haddress ▸ hdoubled.bits) hmask (block.getFirstAddress - n.getFirstAddress)
      (by omega) ?_
    rw [Nat.add_sub_cancel' hle, hvalue]
    -- It is the same block with its first address in place of its address.
    have hsame : IpAddress.Valid v ⟨block.getFirstAddress, block.networkMask, included, n.isV4⟩ :=
      ⟨(hvalid n hn.mem).family, haddress ▸ hblock.networkMask_le⟩
    exact hdoubled.congr hblock hsame rfl (hblock.getFirstAddress_eq_of_covers hsame IpAddress.covers_getFirstAddress
      IpAddress.covers_netAddress rfl)

namespace Tracked

section

variable (hvalid : ∀ n ∈ l, n.Valid v) (hconsistent : nets.Consistent l) (hascending : Ascending l)

include hvalid hconsistent hascending

theorem init : Tracked v l (generateIPList true ⟨l⟩).init := by
  obtain ⟨hnodup, hsub, hmem⟩ := mem_remaining_iff hvalid hconsistent hascending
  have hnodupl : l.Nodup := hascending.pairwise.imp fun h => h.2
  refine ⟨⟨l, .init hvalid hconsistent⟩, l.filter fun n => n ∉ remaining l, fun n hn => by simpa using hn,
    ⟨.start, remaining l, []⟩, ⟨rfl, rfl, ?_, ?_, fun n hn => ?_, fun n hn => ?_, fun n hn => ?_⟩, fun _ _ _ => Iff.rfl⟩
  · refine (List.perm_ext_iff_of_nodup hnodupl ?_).mpr fun n => ?_
    · refine hnodup.append (hnodupl.filter _) fun n hn hlost => ?_
      exact absurd hn (by simpa using (List.mem_filter.mp hlost).2)
    · rw [List.mem_append, List.mem_filter, decide_eq_true_eq]
      by_cases hn : n ∈ remaining l
      · exact iff_of_true (hsub n hn) (.inl hn)
      · exact ⟨fun h => .inr ⟨h, hn⟩, fun h => (h.resolve_left hn).1⟩
  · exact @Invariant.init v true _ (fun n hn => hvalid n (hsub n hn))
      fun m hm n hn => hconsistent m (hsub m hm) n (hsub n hn)
  · exact hvalid n (List.mem_filter.mp hn).1
  · obtain ⟨hl, hnot⟩ := List.mem_filter.mp hn
    rw [decide_eq_true_eq] at hnot
    exact not_not.mp fun h => hnot ((hmem n hl).mpr h)
  · exact (hmem n (hsub n hn)).mp hn

end

theorem step (h : Tracked v l s) (hstep : s.step true e = some u) (hoverlays : s.Overlays e = false) :
    Tracked v l u ∧ u.measure < s.measure := by
  obtain ⟨hpolls, hphase⟩ : Polls s.networks e = true ∧ s.phase ≠ .done := by
    obtain ⟨hpolls, ⟨hp, -⟩ | ⟨c, hp, -⟩⟩ := Generation.of_step hstep
    · exact ⟨hpolls, by simp [hp]⟩
    · exact ⟨hpolls, by simp [hp]⟩
  obtain ⟨u', hu', hsound, hmeasure⟩ := h.sound.step hphase hpolls hoverlays
  obtain rfl := Option.some.inj (hu'.symm.trans hstep)
  obtain ⟨lost, hlost, hshadowed⟩ := h.shadowed
  obtain ⟨lost', hsub, hshadowed'⟩ := hshadowed.step hstep hoverlays
  exact ⟨⟨hsound, lost', fun n hn => hlost n (hsub n hn), hshadowed'⟩, hmeasure⟩

theorem not_overlays (h : Tracked v l s)
    (hnone : ∀ block included, block.Valid v → ¬ Doubled (remaining l) block included) : s.Overlays e = false := by
  cases e with
  | none => rfl
  | some n =>
      refine Bool.not_eq_true _ ▸ fun hoverlays => ?_
      obtain ⟨lost, -, hshadowed⟩ := h.shadowed
      obtain ⟨block, included, hblock, hdoubled⟩ := hshadowed.doubled hoverlays
      exact hnone block included hblock hdoubled

/-- At the end nothing is doubled, and what is done resolves every address as the nets that remain do. -/
theorem of_done (h : Tracked v l s) (hphase : s.phase = .done) :
    (∀ block included, block.Valid v → ¬ Doubled (remaining l) block included) ∧
      (s.ipsDone.Pairwise fun m n => m.getLastAddress < n.getFirstAddress) ∧
      ∀ x b, nets.Resolves s.ipsDone x b ↔ nets.Resolves (remaining l) x b := by
  obtain ⟨lost, -, s', hs, hiff⟩ := h.shadowed
  have hphase' := hs.phase.trans hphase
  have hpending : s'.pending = [] := by
    rw [Generation.pending, hphase']
    exact hs.invariant.finished hphase'
  rw [← hs.ipsDone]
  refine ⟨fun block included hblock hdoubled => ?_, hs.invariant.keeps.ordered, fun x b => ?_⟩
  · obtain ⟨n, hn, -⟩ := ((hiff block included hblock).mp hdoubled).enters.1
    rw [hpending] at hn
    exact absurd hn.mem List.not_mem_nil
  · rw [← hs.invariant.keeps.resolves x b, hpending]
    refine (or_iff_left ?_).symm
    rintro ⟨n, hn, -⟩
    exact absurd hn.mem List.not_mem_nil

end Tracked

end

section

variable {v debug : Bool} {l : List IpAddress} {s : Generation} {es : List (Option IpAddress)}
  (hvalid : ∀ n ∈ l, n.Valid v) (hconsistent : nets.Consistent l) (hascending : Ascending l)

include hvalid hconsistent hascending

/-- Where no block is doubled, every run of a debug build is tracked, and it is bounded. -/
theorem tracked_of_not_doubled (hnone : ∀ block included, block.Valid v → ¬ Doubled (remaining l) block included)
    (hrun : (generateIPList true ⟨l⟩).runFrom (generateIPList true ⟨l⟩).init es = some s) :
    Tracked v l s ∧ es.length + s.measure ≤ (generateIPList true ⟨l⟩).init.measure :=
  Machine.measure_bounds (fun _ _ _ ht hstep => ht.step hstep (ht.not_overlays hnone))
    (Tracked.init hvalid hconsistent hascending) hrun

/-- Where no run puts a second half beside an equal net, some run comes to the end. -/
theorem exists_tracked_done (hoverlays : ∀ es s e,
      (generateIPList true ⟨l⟩).runFrom (generateIPList true ⟨l⟩).init es = some s → s.Overlays e = false) :
    ∃ es s, (generateIPList true ⟨l⟩).runFrom (generateIPList true ⟨l⟩).init es = some s ∧ Tracked v l s ∧
      s.phase = .done := by
  have hstep : ∀ s, ((∃ es, (generateIPList true ⟨l⟩).runFrom (generateIPList true ⟨l⟩).init es = some s) ∧
      Tracked v l s) → s.phase ≠ .done → ∃ e u, (generateIPList true ⟨l⟩).step s e = some u ∧
      ((∃ es, (generateIPList true ⟨l⟩).runFrom (generateIPList true ⟨l⟩).init es = some u) ∧ Tracked v l u) ∧
      u.measure < s.measure := by
    rintro s ⟨⟨es, hrun⟩, htracked⟩ hphase
    obtain ⟨e, hpolls⟩ := exists_polls s.networks
    obtain ⟨u, hu, -⟩ := htracked.sound.step hphase hpolls (hoverlays es s e hrun)
    obtain ⟨htracked', hlt⟩ := htracked.step hu (hoverlays es s e hrun)
    exact ⟨e, u, hu, ⟨⟨es ++ [e], Machine.runFrom_append.mpr ⟨s, hrun, Machine.runFrom_cons.mpr ⟨u, hu, rfl⟩⟩⟩,
      htracked'⟩, hlt⟩
  obtain ⟨es, s, hrun, ⟨-, htracked⟩, hphase⟩ := Machine.exists_finished hstep
    ⟨⟨[], rfl⟩, Tracked.init hvalid hconsistent hascending⟩
  exact ⟨es, s, hrun, htracked, hphase⟩

/-- Some run puts a second half beside an equal net exactly when a block is doubled by the nets that remain. -/
theorem overlays_iff : (∀ es s e,
      (generateIPList true ⟨l⟩).runFrom (generateIPList true ⟨l⟩).init es = some s → s.Overlays e = false) ↔
    ∀ block included, block.Valid v → ¬ Doubled (remaining l) block included := by
  constructor
  · intro hoverlays
    obtain ⟨es, s, -, htracked, hphase⟩ := exists_tracked_done hvalid hconsistent hascending hoverlays
    exact (htracked.of_done hphase).1
  · exact fun hnone es s e hrun =>
      (tracked_of_not_doubled hvalid hconsistent hascending hnone hrun).1.not_overlays hnone

end

end AllInSafe.Routes
