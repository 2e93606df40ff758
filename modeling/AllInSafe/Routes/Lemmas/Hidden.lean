import AllInSafe.Routes.Lemmas.Slips

/-!
# What remains of a set of nets

Whether a net is hidden depends on what starts before it, and on what starts with it and has the other type. So the
nets that the loop drops can be taken away one after the other, and what remains are the nets that are not hidden.
-/

namespace AllInSafe.Routes
open AllInSafe.Library

section

variable {v t : Bool} {l : List IpAddress} {b k n : IpAddress} {m : Nat}

/-! ## Hidden nets -/

theorem not_hidden_of_isSecondHalf (hsecond : n.IsSecondHalf) (hn : n.Valid v) : ¬ Hidden l n := by
  intro h
  obtain ⟨m, hm, hbase, -⟩ := h.larger
  have := hsecond.le hn (hn.around hm.le) hbase
  simp only [IpAddress.around_networkMask] at this
  omega

theorem around_lt (hn : n.Valid v) (hm : m < n.networkMask)
    (hbase : (n.around m).secondHalf.getFirstAddress = n.getFirstAddress) :
    (n.around m).getFirstAddress < n.getFirstAddress := by
  have hbits : (n.around m).networkMask < (n.around m).addressBits := hm.trans_le hn.networkMask_le
  rw [← hbase]
  exact lt_secondHalf hbits

theorem Hidden.lt_of_least (h : Hidden l n) (hn : n.Valid v) {y : Nat} (hleast : ∀ k ∈ l, y ≤ k.getFirstAddress) :
    y < n.getFirstAddress := by
  obtain ⟨m, hm, hbase, henters, -⟩ := h.within
  exact (le_of_resolves hleast henters.1).trans_lt (around_lt hn hm hbase)

/-- A hidden net is no second half: something larger starts with it. -/
theorem Hidden.ne_secondHalf (h : Hidden l k) (hk : k.Valid v) (hn : n.Valid v) (hbits : n.networkMask < n.addressBits)
    (hmask : k.networkMask = n.secondHalf.networkMask) : k.getFirstAddress ≠ n.secondHalf.getFirstAddress := by
  intro hfirst
  obtain ⟨j, hj, hbase, -⟩ := h.larger
  have hle := hn.le_secondHalf hbits (hk.around hj.le) (hbase.trans hfirst)
  simp only [IpAddress.around_networkMask] at hle
  omega

/-- Only one block has its second half where the net starts. -/
theorem around_unique (hk : k.Valid v) (hn : n.Valid v) (hfirst : k.getFirstAddress = n.getFirstAddress) {i : Nat}
    (hi : i < k.networkMask) (hibase : (k.around i).secondHalf.getFirstAddress = k.getFirstAddress)
    (hm : m < n.networkMask) (hbase : (n.around m).secondHalf.getFirstAddress = n.getFirstAddress) :
    i = m ∧ (k.around i).getFirstAddress = (n.around m).getFirstAddress := by
  have hki := hk.around hi.le
  have hnm := hn.around hm.le
  have hkbits : (k.around i).networkMask < (k.around i).addressBits := hi.trans_le hk.networkMask_le
  have hnbits : (n.around m).networkMask < (n.around m).addressBits := hm.trans_le hn.networkMask_le
  have heq : (n.around m).secondHalf.getFirstAddress = (k.around i).secondHalf.getFirstAddress := by omega
  have hle := hki.le_secondHalf hkbits (hnm.secondHalf hnbits) heq
  have hge := hnm.le_secondHalf hnbits (hki.secondHalf hkbits) heq.symm
  obtain rfl : i = m := le_antisymm (Nat.le_of_succ_le_succ hle) (Nat.le_of_succ_le_succ hge)
  refine ⟨rfl, hki.getFirstAddress_eq_of_covers hnm (hk.around_holds hi.le).1 ?_ rfl⟩
  rw [hfirst]
  exact (hn.around_holds hm.le).1

/-- The loop enters the block before a hidden net with the type of that net only. -/
theorem Hidden.eq_of_enters (h : Hidden l n) (hconsistent : nets.Consistent l) (hk : k.Valid v) (hn : n.Valid v)
    (hfirst : k.getFirstAddress = n.getFirstAddress) (hm : m < k.networkMask)
    (hbase : (k.around m).secondHalf.getFirstAddress = k.getFirstAddress) (henters : Enters l (k.around m) t) :
    t = n.included := by
  obtain ⟨i, hi, hibase, henters', -⟩ := h.within
  obtain ⟨-, hsame⟩ := around_unique hk hn hfirst hm hbase hi hibase
  have hresolves := henters.1
  rw [hsame] at hresolves
  exact hresolves.unique hconsistent henters'.1

/-- A net of the type of a hidden one that starts with it is hidden too, unless it stands after something of the other
type. -/
theorem Hidden.of_same (h : Hidden l n) (hk : k.Valid v) (hn : n.Valid v)
    (hfirst : k.getFirstAddress = n.getFirstAddress) (hincluded : k.included = n.included)
    (hlarger : ∃ m < k.networkMask, (n.around m).getFirstAddress = n.getFirstAddress ∧ m ≤ n.networkMask ∧
      Piece l (n.around m) (!n.included))
    (hsmallest : ∀ j ∈ l, j.getFirstAddress = n.getFirstAddress → j.included = !n.included →
      j.networkMask < k.networkMask) : Hidden l k := by
  have haround : ∀ m ≤ k.networkMask, m ≤ n.networkMask →
      (k.around m).getFirstAddress = (n.around m).getFirstAddress := fun m hm hm' =>
    (hk.around hm).getFirstAddress_eq_of_covers (hn.around hm') (hfirst ▸ (hk.around_holds hm).1)
      (hn.around_holds hm').1 rfl
  obtain ⟨i, hi, hibase, henters, hbefore⟩ := h.within
  obtain ⟨m, hm, hbase, hmn, hpiece⟩ := hlarger
  -- The larger piece lies in the second half of the block.
  have hle := (hn.around hi.le).le_secondHalf (hi.trans_le hn.networkMask_le) (hn.around hmn)
    (hbase.trans hibase.symm)
  have hik : i < k.networkMask := (Nat.lt_of_succ_le hle).trans hm
  have hsame := haround i hik.le hi.le
  have hbits : (k.around i).networkMask < (k.around i).addressBits := hik.trans_le hk.networkMask_le
  refine ⟨⟨i, hik, ?_, ?_, fun j hj => ?_⟩, ⟨m, hm, ?_, ?_⟩, fun j hj hjfirst hjincluded => ?_⟩
  · rw [(hk.around hik.le).secondHalf_eq (hn.around hi.le) hbits rfl hsame, hibase, hfirst]
  · rw [hincluded]
    exact henters.congr (hn.around hi.le) (hk.around hik.le) rfl hsame.symm
  · rw [hincluded, hsame]
    exact hbefore j (by omega)
  · rw [haround m hm.le hmn, hbase, hfirst]
  · rw [hincluded]
    exact hpiece.congr (hn.around hmn) (hk.around hm.le) rfl (haround m hm.le hmn).symm
  · exact hsmallest j hj (hjfirst.trans hfirst) (hincluded ▸ hjincluded)

/-! ## A hidden net is taken away -/

section

variable (hnodup : l.Nodup) (hvalid : ∀ j ∈ l, j.Valid v) (hconsistent : nets.Consistent l) (hmem : n ∈ l)
  (hhidden : Hidden l n)

include hnodup in
theorem mem_erase_below {x : Nat} (hx : x < n.getFirstAddress) (j : IpAddress) (hj : j.Covers x) :
    j ∈ l.erase n ↔ j ∈ l :=
  (hnodup.mem_erase_iff).trans (and_iff_right fun heq => absurd (heq ▸ hj.1) (not_le_of_gt hx))

include hnodup hvalid hconsistent hmem hhidden in
/-- Around what starts with it, nothing of the other type is lost. -/
theorem piece_erase (hb : b.Valid v) (hfirst : b.getFirstAddress = n.getFirstAddress) :
    Piece (l.erase n) b (!n.included) ↔ Piece l b (!n.included) := by
  have hsub : ∀ j ∈ l.erase n, j ∈ l := fun j hj => List.mem_of_mem_erase hj
  have hkeep : ∀ j ∈ l, j.included = !n.included → j ∈ l.erase n := fun j hj hother =>
    (hnodup.mem_erase_iff).mpr ⟨fun heq => (Bool.eq_not_self _).mp (heq ▸ hother), hj⟩
  constructor
  · rintro ⟨hwhich, j, hj, hvalue⟩
    refine ⟨hwhich.imp_left fun hcontains => ?_, j, ⟨hsub j hj.mem, hj.covers, fun i hi hib => ?_⟩, hvalue⟩
    · obtain ⟨i, hi, hkey⟩ := containsNet_iff.mp hcontains
      exact containsNet_iff.mpr ⟨i, hsub i hi, hkey⟩
    · by_cases heq : i = n
      · -- The net that is taken away is smaller than the block, or does not hold it.
        subst heq
        rcases hwhich with hcontains | hsecond
        · obtain ⟨a, ha, hmask, hafirst⟩ := containsNet_iff.mp hcontains
          have hle := hj.longest a ha (IpAddress.Valid.holds_of_equals hafirst hmask.ge)
          exact (hib.2.trans hmask.le).trans hle
        · obtain ⟨m, hm, hbase, -⟩ := hhidden.larger
          have hi := hvalid i hmem
          have hle : b.networkMask ≤ m := hsecond.le hb (hi.around hm.le) (hbase.trans hfirst.symm)
          have hge : i.networkMask ≤ b.networkMask := hib.2
          omega
      · exact hj.longest i ((hnodup.mem_erase_iff).mpr ⟨heq, hi⟩) hib
  · rintro ⟨hwhich, hholders⟩
    refine ⟨hwhich.imp_left fun hcontains => ?_, ?_⟩
    · obtain ⟨i, hi, hmask, hifirst⟩ := containsNet_iff.mp hcontains
      have hvalue := holders_eq_of_mem hconsistent hi hmask hifirst hholders
      exact containsNet_iff.mpr ⟨i, hkeep i hi hvalue.symm, hmask, hifirst⟩
    · obtain ⟨j, hj, hvalue⟩ := hholders
      exact ⟨j, hj.mono (hkeep j hj.mem hvalue) fun i hi _ => hsub i hi, hvalue⟩

include hnodup hvalid hconsistent hmem hhidden in
theorem hidden_erase (hk : k.Valid v) (hle : k.getFirstAddress ≤ n.getFirstAddress) :
    Hidden (l.erase n) k ↔ Hidden l k := by
  have hn := hvalid n hmem
  have henters : ∀ m < k.networkMask, (k.around m).secondHalf.getFirstAddress = k.getFirstAddress → ∀ t,
      (Enters (l.erase n) (k.around m) t ↔ Enters l (k.around m) t) := fun m hm hbase t =>
    enters_congr fun j hj => mem_erase_below hnodup ((around_lt hk hm hbase).trans_le hle) j hj
  have hresolves : ∀ x < k.getFirstAddress, ∀ t, (nets.Resolves (l.erase n) x t ↔ nets.Resolves l x t) :=
    fun x hx t => Entries.Resolves.congr fun j hj => mem_erase_below hnodup (hx.trans_le hle) j hj
  have hpiece : (∃ m < k.networkMask, (k.around m).secondHalf.getFirstAddress = k.getFirstAddress ∧
      Enters l (k.around m) k.included) → ∀ m < k.networkMask, (k.around m).getFirstAddress = k.getFirstAddress →
      (Piece (l.erase n) (k.around m) (!k.included) ↔ Piece l (k.around m) (!k.included)) := by
    rintro ⟨i, hi, hibase, hienters⟩ m hm hbase
    rcases hle.lt_or_eq with hlt | heq
    · exact piece_congr fun j hj => mem_erase_below hnodup (by rwa [hbase]) j hj
    · rw [hhidden.eq_of_enters hconsistent hk hn heq hi hibase hienters]
      exact piece_erase hnodup hvalid hconsistent hmem hhidden (hk.around hm.le) (hbase.trans heq)
  constructor
  · intro h
    obtain ⟨i, hi, hibase, hienters, -⟩ := h.within
    have hwithin := (henters i hi hibase k.included).mp hienters
    refine h.of (fun m hm hbase => (henters m hm hbase _).mp) (fun x hx => (hresolves x hx _).mp)
      (fun m hm hbase => (hpiece ⟨i, hi, hibase, hwithin⟩ m hm hbase).mp) fun j hj hnew hjfirst hjincluded => ?_
    -- The hidden net has the type of this one, when they start at the same address.
    obtain rfl : j = n := by
      by_contra hne
      exact hnew ((hnodup.mem_erase_iff).mpr ⟨hne, hj⟩)
    rw [hhidden.eq_of_enters hconsistent hk hn hjfirst.symm hi hibase hwithin] at hjincluded
    exact ((Bool.eq_not_self _).mp hjincluded).elim
  · intro h
    obtain ⟨i, hi, hibase, hienters, -⟩ := h.within
    exact h.of (fun m hm hbase => (henters m hm hbase _).mpr) (fun x hx => (hresolves x hx _).mpr)
      (fun m hm hbase => (hpiece ⟨i, hi, hibase, hienters⟩ m hm hbase).mpr)
      fun j hj hnew _ _ => absurd (List.mem_of_mem_erase hj) hnew

end

/-! ## What remains -/

/-- The nets are taken in the order of their first addresses: what has been decided about those before stays. -/
theorem foldl_remaining {kept seen coming : List IpAddress} (hnodup : kept.Nodup) (hvalid : ∀ j ∈ kept, j.Valid v)
    (hconsistent : nets.Consistent kept) (hseen : ∀ n ∈ seen, n.Valid v)
    (horder : (seen ++ coming).Pairwise fun j n => j.getFirstAddress ≤ n.getFirstAddress ∧ j ≠ n)
    (hcoming : ∀ n ∈ coming, n ∈ kept) (hspec : ∀ n ∈ seen, n ∈ kept ↔ ¬ Hidden kept n) :
    let r := coming.foldl (fun kept n => if Hidden kept n then kept.erase n else kept) kept
    r.Nodup ∧ (∀ n ∈ r, n ∈ kept) ∧ ∀ n ∈ seen ++ coming, n ∈ r ↔ ¬ Hidden r n := by
  induction coming generalizing kept seen with
  | nil => exact ⟨hnodup, fun _ hn => hn, by simpa using hspec⟩
  | cons n coming ih =>
      have hn := hcoming n List.mem_cons_self
      have horder' : ((seen ++ [n]) ++ coming).Pairwise fun j n => j.getFirstAddress ≤ n.getFirstAddress ∧ j ≠ n := by
        rwa [List.append_assoc]
      have hseen' : ∀ j ∈ seen ++ [n], j.Valid v := by
        intro j hj
        rcases List.mem_append.mp hj with hj | hj
        · exact hseen j hj
        · exact List.mem_singleton.mp hj ▸ hvalid n hn
      have hbefore : ∀ j ∈ seen, j.getFirstAddress ≤ n.getFirstAddress ∧ j ≠ n :=
        fun j hj => (List.pairwise_append.mp horder).2.2 j hj n List.mem_cons_self
      have hafter : ∀ j ∈ coming, j ≠ n := fun j hj =>
        ((List.pairwise_cons.mp (List.pairwise_append.mp horder).2.1).1 j hj).2.symm
      rw [List.foldl_cons, ← List.singleton_append, ← List.append_assoc]
      by_cases hhidden : Hidden kept n
      · rw [if_pos hhidden]
        have hsub : ∀ j ∈ kept.erase n, j ∈ kept := fun j hj => List.mem_of_mem_erase hj
        obtain ⟨hnodup', hsub', hspec'⟩ := @ih (kept.erase n) (seen ++ [n]) (hnodup.erase n)
          (fun j hj => hvalid j (hsub j hj))
          (fun j hj i hi => hconsistent j (hsub j hj) i (hsub i hi)) hseen' horder'
          (fun j hj => (hnodup.mem_erase_iff).mpr ⟨hafter j hj, hcoming j (List.mem_cons_of_mem n hj)⟩)
          fun j hj => by
            have hstays : ∀ i, i.Valid v → i.getFirstAddress ≤ n.getFirstAddress →
                (Hidden (kept.erase n) i ↔ Hidden kept i) := fun i hi hle =>
              hidden_erase hnodup hvalid hconsistent hn hhidden hi hle
            rcases List.mem_append.mp hj with hj | hj
            · obtain ⟨hle, hne⟩ := hbefore j hj
              rw [hnodup.mem_erase_iff, and_iff_right hne, hstays j (hseen j hj) hle]
              exact hspec j hj
            · obtain rfl := List.mem_singleton.mp hj
              rw [hnodup.mem_erase_iff, hstays j (hvalid j hn) le_rfl]
              simp [hhidden]
        exact ⟨hnodup', fun j hj => hsub j (hsub' j hj), hspec'⟩
      · rw [if_neg hhidden]
        refine @ih kept (seen ++ [n]) hnodup hvalid hconsistent hseen' horder'
          (fun j hj => hcoming j (List.mem_cons_of_mem n hj)) fun j hj => ?_
        rcases List.mem_append.mp hj with hj | hj
        · exact hspec j hj
        · obtain rfl := List.mem_singleton.mp hj
          exact iff_of_true hn hhidden

section

variable (hvalid : ∀ n ∈ l, n.Valid v) (hconsistent : nets.Consistent l) (hascending : Ascending l)

include hascending in
theorem Ascending.pairwise : l.Pairwise fun j n => j.getFirstAddress ≤ n.getFirstAddress ∧ j ≠ n := by
  refine hascending.imp fun {j n} hlt => ?_
  rw [IpAddress.compareTo_lt_iff] at hlt
  refine ⟨by omega, fun heq => ?_⟩
  subst heq
  omega

include hvalid hconsistent hascending in
/-- What remains is what is not hidden by what remains. -/
theorem mem_remaining_iff : (remaining l).Nodup ∧ (∀ n ∈ remaining l, n ∈ l) ∧
    ∀ n ∈ l, n ∈ remaining l ↔ ¬ Hidden (remaining l) n := by
  have hpairwise := hascending.pairwise
  have hnodup : l.Nodup := hpairwise.imp fun h => h.2
  exact @foldl_remaining v l [] l hnodup hvalid hconsistent (by simp) hpairwise (fun _ hn => hn) (by simp)

end

/-- Where a net is hidden, the other type goes on. -/
theorem Hidden.resolves (h : Hidden l n) (hn : n.Valid v) (hvalid : ∀ j ∈ l, j.Valid v)
    (hconsistent : nets.Consistent l) (hshown : ∀ j ∈ l, ¬ Hidden l j) :
    nets.Resolves l n.getFirstAddress (!n.included) := by
  obtain ⟨m, hm, hbase, hpiece⟩ := h.larger
  obtain ⟨i, hi, hvalue⟩ := id hpiece.2
  have hix : i.Covers n.getFirstAddress := hbase ▸ hi.covers.1
  obtain ⟨j, hj⟩ := Entries.Best.exists (E := nets) hi.mem hix
  refine ⟨j, hj, ?_⟩
  by_contra hother
  have hincluded : j.included = n.included := by
    have hne : j.included ≠ !n.included := hother
    revert hne
    cases j.included <;> cases n.included <;> simp
  have hdiffer : ∀ a ∈ l, a.Covers n.getFirstAddress → a.included = !n.included → a.networkMask < j.networkMask := by
    intro a ha hax hainc
    refine lt_of_le_of_ne (hj.longest a ha hax) fun heq => ?_
    have hsame := hconsistent a ha j hj.mem _ hax hj.covers heq
    exact (Bool.eq_not_self _).mp (hincluded.symm.trans (hsame.symm.trans hainc))
  have hp := hn.around hm.le
  have hpx : (n.around m).Covers n.getFirstAddress := (hn.around_holds hm.le).1
  -- The net that goes on is smaller than the piece, and so starts with it.
  have hmj : m < j.networkMask := by
    by_contra hle
    have hholds := (hvalid j hj.mem).holds hp hj.covers hpx (not_lt.mp hle)
    have hle' : j.networkMask ≤ i.networkMask := hi.longest j hj.mem hholds
    have hlt := hdiffer i hi.mem hix hvalue
    omega
  have hfirst : j.getFirstAddress = n.getFirstAddress := by
    have hle := (hp.holds (hvalid j hj.mem) hpx hj.covers hmj.le).1.1
    have hge := hj.covers.1
    omega
  exact hshown j hj.mem (h.of_same (hvalid j hj.mem) hn hfirst hincluded ⟨m, hmj, hbase, hm.le, hpiece⟩
    fun a ha hafirst hainc => hdiffer a ha (hafirst ▸ IpAddress.covers_getFirstAddress) hainc)

/-- Before it was left out the net had its own type there. -/
theorem resolves_hidden {l' : List IpAddress} (h : Hidden l' n) (hn : n ∈ l) (hvalid : ∀ j ∈ l, j.Valid v)
    (hconsistent : nets.Consistent l') (hrest : ∀ j ∈ l, j ∈ l' ∨ Hidden l' j) :
    nets.Resolves l n.getFirstAddress n.included := by
  obtain ⟨j, hj⟩ := Entries.Best.exists (E := nets) hn IpAddress.covers_getFirstAddress
  refine ⟨j, hj, ?_⟩
  by_contra hother
  have hincluded : j.included = !n.included := Bool.eq_not.mpr hother
  have hmask : n.networkMask ≤ j.networkMask := hj.longest n hn IpAddress.covers_getFirstAddress
  have hfirst : j.getFirstAddress = n.getFirstAddress := by
    have hholds := (hvalid n hn).holds (hvalid j hj.mem) IpAddress.covers_getFirstAddress hj.covers hmask
    exact le_antisymm hj.covers.1 hholds.1.1
  rcases hrest j hj.mem with hmem | hhidden
  · have := h.smallest j hmem hfirst hincluded
    omega
  · obtain ⟨i, hi, hibase, henters, -⟩ := hhidden.within
    exact hother (h.eq_of_enters hconsistent (hvalid j hj.mem) (hvalid n hn) hfirst hi hibase henters)

/-- A net that does not remain leaves an address that is resolved otherwise. -/
theorem mem_remaining_of_resolves (hvalid : ∀ n ∈ l, n.Valid v) (hconsistent : nets.Consistent l)
    (hascending : Ascending l) (h : ∀ x, nets.Resolves (remaining l) x true ↔ nets.Resolves l x true) :
    ∀ n ∈ l, n ∈ remaining l := by
  obtain ⟨-, hsub, hmem⟩ := mem_remaining_iff hvalid hconsistent hascending
  have hconsistent' : nets.Consistent (remaining l) := fun j hj k hk => hconsistent j (hsub j hj) k (hsub k hk)
  have hdropped : ∀ n ∈ l, n ∉ remaining l → Hidden (remaining l) n :=
    fun n hn hnot => not_not.mp fun hshown => hnot ((hmem n hn).mpr hshown)
  intro n hn
  by_contra hnot
  have hhidden := hdropped n hn hnot
  have hrest : nets.Resolves (remaining l) n.getFirstAddress (!n.included) :=
    hhidden.resolves (hvalid n hn) (fun k hk => hvalid k (hsub k hk)) hconsistent'
      fun k hk => (hmem k (hsub k hk)).mp hk
  have hown : nets.Resolves l n.getFirstAddress n.included :=
    resolves_hidden hhidden hn hvalid hconsistent' fun k hk => (em _).imp_right (hdropped k hk)
  cases hincluded : n.included with
  | true =>
      rw [hincluded] at hrest hown
      exact absurd (hrest.unique hconsistent' ((h _).mpr hown)) (by simp)
  | false =>
      rw [hincluded] at hrest hown
      exact absurd (hown.unique hconsistent ((h _).mp hrest)) (by simp)

end

end AllInSafe.Routes
