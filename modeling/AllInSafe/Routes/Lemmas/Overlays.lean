import AllInSafe.Routes.Lemmas.Order
import AllInSafe.Routes.Lemmas.Sets

/-!
# Assertions that fail, and second halves put beside an equal net

The nets of a debug build stay in the range of their family. As long as no second half is put beside an equal net of
the other type, no assertion fails.
-/

namespace AllInSafe.Routes
open AllInSafe.Library

/-- A prefix and addresses that the family has. -/
structure IpAddress.InRange (ip : IpAddress) : Prop where
  networkMask_le : ip.networkMask ≤ ip.addressBits
  getLastAddress_lt : ip.getLastAddress < 2 ^ ip.addressBits

/-- An assertion stops a debug build after the poll. -/
def Generation.Fails (s : Generation) (nextNet : Option IpAddress) : Bool :=
  Polls s.networks nextNet &&
    match s.phase with
    | .start | .done => false
    | .loop currentNet => !(body true currentNet nextNet (rest s.networks nextNet) s.ipsDone).isOk

/-- The second half of the current net is added although the queue has an equal net of the other type. -/
def overlays (currentNet nextNet : IpAddress) (networks : List IpAddress) : Bool :=
  overlaps currentNet nextNet && !sameBase currentNet nextNet && currentNet.included != nextNet.included &&
    currentNet.secondHalf.networkMask ≠ nextNet.networkMask &&
    networks.any fun n => currentNet.secondHalf.equals n && n.included != currentNet.included

def Generation.Overlays (s : Generation) : Option IpAddress → Bool
  | none => false
  | some nextNet =>
      match s.phase with
      | .start | .done => false
      | .loop currentNet =>
          Polls s.networks (some nextNet) && overlays currentNet nextNet (s.networks.erase nextNet)

/-! ## The range of the nets -/

namespace IpAddress

variable {n : IpAddress}

/-- The assertion of `split` holds of a net with more than one address only. -/
theorem networkMask_lt_of_split
    (h : n.secondHalf.getLastAddress = n.getLastAddress) : n.networkMask < n.addressBits := by
  by_contra hbits
  have hlast := getLastAddress_of_le (not_lt.mp hbits)
  have hlt := lt_secondHalf_getFirstAddress n
  have := getFirstAddress_le_getLastAddress (n := n.secondHalf)
  omega

theorem InRange.firstHalf (h : n.InRange) (hbits : n.networkMask < n.addressBits) : n.firstHalf.InRange := by
  have hmiddle := getLastAddress_firstHalf hbits
  have hle := getFirstAddress_le_getLastAddress (n := n.secondHalf)
  have hlast := getLastAddress_secondHalf hbits
  refine ⟨hbits, lt_trans ?_ h.getLastAddress_lt⟩
  omega

theorem InRange.secondHalf (h : n.InRange) (hbits : n.networkMask < n.addressBits) : n.secondHalf.InRange :=
  ⟨hbits, (getLastAddress_secondHalf hbits).trans_lt h.getLastAddress_lt⟩

end IpAddress

/-- Every net that is done or pending is in range. -/
def Generation.InRange (s : Generation) : Prop :=
  ∀ n, n ∈ s.ipsDone ∨ n ∈ s.pending → n.InRange

section

variable {v debug : Bool} {s t : Generation} {c : IpAddress} {e : Option IpAddress}

theorem Generation.InRange.iterates (h : s.InRange) (hphase : s.phase = .loop c)
    (hpolls : Polls s.networks e = true) (ht : Iterates true c (rest s.networks e) s.ipsDone e t) : t.InRange := by
  have hc := h c (.inr (Generation.current_mem hphase))
  have hnetworks : ∀ n ∈ s.networks, n.InRange := fun n hn => h n (.inr (Generation.mem_pending hphase hn))
  have hrest : ∀ n ∈ rest s.networks e, n.InRange := by
    cases e with
    | none => exact hnetworks
    | some n => exact fun m hm => hnetworks m (List.mem_of_mem_erase hm)
  rintro k (hk | hk)
  · -- Only the current net is added to what is done.
    cases ht with
    | finish hafter =>
        rcases mem_treeSetAdd hk with rfl | hk
        · exact hc
        · exact h k (.inl hk)
    | _ => exact h k (.inl hk)
  · cases ht with
    | finish hafter =>
        cases e with
        | none => exact hrest k hk
        | some n =>
            rcases List.mem_cons.mp hk with rfl | hk
            · exact hnetworks k (Invariant.polls_some hpolls).1
            · exact hrest k hk
    | forgetCurrent =>
        rcases List.mem_cons.mp hk with rfl | hk
        · exact hnetworks k (Invariant.polls_some hpolls).1
        · exact hrest k hk
    | @splitNext n _ _ _ hsplit =>
        have hn := hnetworks n (Invariant.polls_some hpolls).1
        have hbits := IpAddress.networkMask_lt_of_split (hsplit rfl)
        rcases List.mem_cons.mp hk with rfl | hk
        · exact hc
        · by_cases hold : k ∈ rest s.networks (some n)
          · exact hrest k hold
          · rcases (mem_afterSplit hk hold).2 with rfl | ⟨rfl, -⟩
            · exact hn.secondHalf hbits
            · exact hn.firstHalf hbits
    | dropNext =>
        rcases List.mem_cons.mp hk with rfl | hk
        · exact hc
        · exact hrest k hk
    | @splitCurrent n _ _ _ _ hsplit =>
        have hbits := IpAddress.networkMask_lt_of_split (hsplit rfl)
        rcases List.mem_cons.mp hk with rfl | hk
        · exact hc.firstHalf hbits
        · rcases mem_withSecondHalf.mp hk with rfl | hk | ⟨rfl, -⟩
          · exact hnetworks k (Invariant.polls_some hpolls).1
          · exact hrest k hk
          · exact hc.secondHalf hbits

theorem Generation.InRange.step (h : s.InRange) (ht : s.step true e = some t) : t.InRange := by
  obtain ⟨hpolls, ⟨hp, rfl⟩ | ⟨c, hphase, ht⟩⟩ := Generation.of_step ht
  · have hpending : s.pending = s.networks := by rw [Generation.pending, hp]
    rintro n (hn | hn)
    · exact h n (.inl hn)
    · refine h n (.inr ?_)
      rw [hpending]
      cases e with
      | none => exact hn
      | some m => exact (Invariant.mem_rest (Invariant.polls_some hpolls).1).mpr hn
  · exact h.iterates hphase hpolls ht

/-! ## Steps and failures -/

/-- Where a debug build is not stopped, both builds do the same. -/
theorem Generation.step_eq {t' : Generation} (ht : s.step debug e = some t) (ht' : s.step true e = some t') :
    t = t' := by
  obtain ⟨-, ⟨hp, rfl⟩ | ⟨c, hphase, hs⟩⟩ := of_step ht
  · obtain ⟨-, ⟨-, rfl⟩ | ⟨c, hphase, -⟩⟩ := of_step ht'
    · rfl
    · rw [hp] at hphase
      cases hphase
  · obtain ⟨-, ⟨hp, -⟩ | ⟨c', hphase', hs'⟩⟩ := of_step ht'
    · rw [hp] at hphase
      cases hphase
    · rw [hphase] at hphase'
      cases hphase'
      exact hs.unique hs'

theorem Generation.step_none_of_fails (h : s.Fails e = true) :
    Polls s.networks e = true ∧ s.phase ≠ .done ∧ s.step true e = none := by
  rw [Fails, Bool.and_eq_true] at h
  obtain ⟨hpolls, h⟩ := h
  refine ⟨hpolls, fun hp => ?_, ?_⟩
  · rw [hp] at h
    cases h
  · simp only [step, hpolls]
    cases hp : s.phase with
    | start => rw [hp] at h; cases h
    | done => rfl
    | loop c =>
        rw [hp] at h
        dsimp only at h ⊢
        cases hbody : body true c e (rest s.networks e) s.ipsDone with
        | error => rfl
        | ok t => rw [hbody] at h; cases h

theorem Generation.fails_or_iterates (hphase : s.phase = .loop c) (hpolls : Polls s.networks e = true) :
    s.Fails e = true ∨
      ∃ t, s.step true e = some t ∧ Iterates true c (rest s.networks e) s.ipsDone e t := by
  cases hbody : body true c e (rest s.networks e) s.ipsDone with
  | error => exact .inl (by simp only [Fails, hpolls, hphase, hbody]; rfl)
  | ok t => exact .inr ⟨t, by simp only [step, hpolls, hphase, hbody]; rfl, body_iterates hbody⟩

/-! ## Runs without an overlay -/

/-- Fewer pending nets are resolved by themselves. -/
theorem Keeps.rebase {l ipsDone pending pending' : List IpAddress} (h : Keeps v l ipsDone pending)
    (hsub : ∀ n ∈ pending', n ∈ pending) : Keeps v (ipsDone ++ pending') ipsDone pending' where
  valid n hn := h.valid n (hsub n hn)
  consistent m hm n hn := h.consistent m (hsub m hm) n (hsub n hn)
  ordered := h.ordered
  before d hd n hn := h.before d hd n (hsub n hn)
  resolves x b := by
    have happend : nets.Resolves (ipsDone ++ pending') x b ↔
        nets.Resolves ipsDone x b ∨ nets.Resolves pending' x b :=
      Entries.resolves_append fun d hd n hn hdx hnx =>
        absurd (hdx.2.trans_lt (h.before d hd n (hsub n hn))) (not_lt_of_ge hnx.1)
    exact happend.symm

/-- Only a net that is dropped clashes here: whatever else an iteration does, the nets stay resolved. -/
theorem clashes_eq_false {n : IpAddress} {networks ipsDone : List IpAddress}
    (ht : Iterates true c networks ipsDone (some n) t) (hdrop : t ≠ ⟨.loop c, networks, ipsDone⟩)
    (hoverlays : overlays c n networks = false) : clashes c n networks = false := by
  cases ht with
  | finish hafter => simp [clashes, overlaps, hafter n rfl]
  | forgetCurrent _ hbase => simp [clashes, hbase]
  | splitNext _ hbase => simp [clashes, hbase]
  | dropNext => exact absurd rfl hdrop
  | splitCurrent _ hbase _ hincluded =>
      simp only [overlays, bne_iff_ne.mpr hincluded, Bool.and_true] at hoverlays
      rwa [clashes, if_neg hincluded, ← Bool.and_assoc]

/-- Among the pending nets, equal ones agree. -/
def Sound (v : Bool) (s : Generation) : Prop := ∃ l, Invariant v l s

theorem Sound.step (h : Sound v s) (hphase : s.phase ≠ .done) (hpolls : Polls s.networks e = true)
    (hoverlays : s.Overlays e = false) : ∃ t, s.step true e = some t ∧ Sound v t ∧ t.measure < s.measure := by
  obtain ⟨l, hinv⟩ := h
  obtain ⟨t, ht, hmeasure, hsound⟩ := hinv.step true hphase hpolls
  refine ⟨t, ht, ?_, hmeasure⟩
  obtain ⟨-, ⟨hp, -⟩ | ⟨c, hp, hs⟩⟩ := Generation.of_step ht
  · exact ⟨l, hsound (by cases e <;> simp [Generation.Clashes, hp])⟩
  · cases e with
    | none => exact ⟨l, hsound rfl⟩
    | some n =>
        simp only [Generation.Overlays, hp, hpolls, Bool.true_and] at hoverlays
        by_cases hdrop : t = ⟨.loop c, rest s.networks (some n), s.ipsDone⟩
        · have hkeeps := hinv.keeps
          rw [Generation.pending, hp] at hkeeps
          have hsub : ∀ m ∈ c :: s.networks.erase n, m ∈ c :: s.networks := by
            intro m hm
            rcases List.mem_cons.mp hm with rfl | hm
            · exact List.mem_cons_self
            · exact List.mem_cons_of_mem c (List.mem_of_mem_erase hm)
          subst hdrop
          refine ⟨_, hkeeps.rebase hsub, fun c' hc' m hm => ?_, by rintro ⟨⟩⟩
          cases hc'
          exact hinv.least c hp m (List.mem_of_mem_erase hm)
        · have hclash : clashes c n (s.networks.erase n) = false := clashes_eq_false hs hdrop hoverlays
          exact ⟨l, hsound (by simpa only [Generation.Clashes, hp] using hclash)⟩

theorem Sound.not_fails (h : Sound v s) (hoverlays : s.Overlays e = false) : s.Fails e = false := by
  cases hfails : s.Fails e with
  | false => rfl
  | true =>
      obtain ⟨hpolls, hphase, hstep⟩ := Generation.step_none_of_fails hfails
      obtain ⟨t, ht, -⟩ := h.step hphase hpolls hoverlays
      rw [hstep] at ht
      cases ht

/-- A run of either build is a run of a debug build, as long as no second half is put beside an equal net. -/
theorem Sound.run {space : NetworkSpace} {es : List (Option IpAddress)} (h : Sound v s) (hrange : s.InRange)
    (hoverlays : ∀ es t e, (generateIPList true space).runFrom s es = some t → t.Overlays e = false)
    (hrun : (generateIPList debug space).runFrom s es = some t) :
    (generateIPList true space).runFrom s es = some t ∧ Sound v t ∧ t.InRange := by
  induction es generalizing s with
  | nil =>
      cases hrun
      exact ⟨rfl, h, hrange⟩
  | cons e es ih =>
      obtain ⟨u, hu, hut⟩ := Machine.runFrom_cons.mp hrun
      have hstep : s.step debug e = some u := hu
      have hphase : s.phase ≠ .done := by
        obtain ⟨-, ⟨hp, -⟩ | ⟨c, hp, -⟩⟩ := Generation.of_step hstep
        · simp [hp]
        · simp [hp]
      obtain ⟨u', hu', hsound, -⟩ := h.step hphase (Generation.of_step hstep).1 (hoverlays [] s e rfl)
      obtain rfl := Generation.step_eq hstep hu'
      obtain ⟨hfinal, hkept⟩ := ih hsound (hrange.step hu')
        (fun es t e ht => hoverlays (_ :: es) t e (Machine.runFrom_cons.mpr ⟨u, hu', ht⟩)) hut
      exact ⟨Machine.runFrom_cons.mpr ⟨u, hu', hfinal⟩, hkept⟩

end

end AllInSafe.Routes
