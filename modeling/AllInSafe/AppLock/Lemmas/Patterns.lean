import AllInSafe.Library.Positions
import AllInSafe.AppLock.PatternLockView

/-! # Which patterns their record gives back -/

namespace AllInSafe.AppLock
open AllInSafe.Library

/-! ## The map from the orders to the dots -/

/-- The orders of the map increase. -/
def Ordered (visitOrder : List (Int × Nat)) : Prop := visitOrder.Pairwise fun a b => a.1 < b.1

theorem mem_visit {order : Int} {dot : Nat} {visitOrder : List (Int × Nat)} {e : Int × Nat} (h : Ordered visitOrder) :
    e ∈ visit order dot visitOrder ↔ e = (order, dot) ∨ e ∈ visitOrder ∧ e.1 ≠ order := by
  induction visitOrder with
  | nil => simp [visit]
  | cons head rest ih =>
      obtain ⟨o, d⟩ := head
      obtain ⟨hhead, hrest⟩ := List.pairwise_cons.mp h
      have hlater : e ∈ rest → o < e.1 := hhead e
      simp only [visit]
      split_ifs with hless heq
      · grind
      · subst heq; grind
      · simp only [List.mem_cons, ih hrest]; grind

theorem Ordered.visit {order : Int} {dot : Nat} {visitOrder : List (Int × Nat)} (h : Ordered visitOrder) :
    Ordered (visit order dot visitOrder) := by
  induction visitOrder with
  | nil => simp [AppLock.visit, Ordered]
  | cons head rest ih =>
      obtain ⟨o, d⟩ := head
      obtain ⟨hhead, hrest⟩ := List.pairwise_cons.mp h
      simp only [AppLock.visit]
      split_ifs with hless heq
      · apply List.Pairwise.cons _ h
        intro e he
        rcases List.mem_cons.mp he with rfl | he
        · exact hless
        · exact lt_trans hless (hhead e he)
      · subst heq
        exact hrest.cons hhead
      · apply List.Pairwise.cons _ (ih hrest)
        intro e he
        rcases (mem_visit hrest).mp he with rfl | ⟨he, -⟩
        · exact lt_of_le_of_ne (not_lt.mp hless) (Ne.symm heq)
        · exact hhead e he

/-- The loop over the array, from the orders and dots of `l`. -/
def visits (l visitOrder : List (Int × Nat)) : List (Int × Nat) :=
  l.foldl (fun visitOrder e => if e.1 > 0 then visit e.1 e.2 visitOrder else visitOrder) visitOrder

theorem visits_cons {e : Int × Nat} {l visitOrder : List (Int × Nat)} :
    visits (e :: l) visitOrder = visits l (if e.1 > 0 then visit e.1 e.2 visitOrder else visitOrder) := rfl

theorem savedPattern_eq (orders : List Int) : savedPattern orders = (visits orders.zipIdx []).map Prod.snd := rfl

theorem Ordered.visits {l visitOrder : List (Int × Nat)} (h : Ordered visitOrder) : Ordered (visits l visitOrder) := by
  induction l generalizing visitOrder with
  | nil => exact h
  | cons e l ih =>
      rw [visits_cons]
      apply ih
      split_ifs with hpos
      · exact h.visit
      · exact h

theorem mem_of_mem_visits {l visitOrder : List (Int × Nat)} {e : Int × Nat} (h : Ordered visitOrder)
    (he : e ∈ visits l visitOrder) : e ∈ visitOrder ∨ e ∈ l := by
  induction l generalizing visitOrder with
  | nil => exact .inl he
  | cons a l ih =>
      by_cases hpos : a.1 > 0
      · have he' : e ∈ visits l (visit a.1 a.2 visitOrder) := by simpa [visits_cons, hpos] using he
        rcases ih h.visit he' with hvisit | hl
        · rcases (mem_visit h).mp hvisit with rfl | ⟨hold, -⟩
          · simp
          · exact .inl hold
        · exact .inr (List.mem_cons_of_mem a hl)
      · have he' : e ∈ visits l visitOrder := by simpa [visits_cons, hpos] using he
        exact (ih h he').imp_right (List.mem_cons_of_mem a)

/-- Where no order comes twice, no dot is replaced. -/
theorem mem_visits {l visitOrder : List (Int × Nat)} {e : Int × Nat} (h : Ordered visitOrder)
    (hl : l.Pairwise fun a b => 0 < a.1 → a.1 ≠ b.1) (hnew : ∀ a ∈ l, ∀ b ∈ visitOrder, 0 < a.1 → a.1 ≠ b.1) :
    e ∈ visits l visitOrder ↔ e ∈ visitOrder ∨ e ∈ l ∧ 0 < e.1 := by
  induction l generalizing visitOrder with
  | nil => simp [visits]
  | cons a l ih =>
      obtain ⟨hhead, hrest⟩ := List.pairwise_cons.mp hl
      by_cases hpos : 0 < a.1
      · have hnew' : ∀ b ∈ l, ∀ c ∈ visit a.1 a.2 visitOrder, 0 < b.1 → b.1 ≠ c.1 := by
          intro b hb c hc hbpos
          rcases (mem_visit h).mp hc with rfl | ⟨hc, -⟩
          · exact (hhead b hb hpos).symm
          · exact hnew b (List.mem_cons_of_mem a hb) c hc hbpos
        have hstep : visits (a :: l) visitOrder = visits l (visit a.1 a.2 visitOrder) := by simp [visits_cons, hpos]
        rw [hstep, ih h.visit hrest hnew', mem_visit h]
        have hkept : e ∈ visitOrder → e.1 ≠ a.1 := fun he => (hnew a (by simp) e he hpos).symm
        grind
      · have hstep : visits (a :: l) visitOrder = visits l visitOrder := by simp [visits_cons, hpos]
        rw [hstep, ih h hrest fun b hb => hnew b (List.mem_cons_of_mem a hb)]
        grind

/-- No dot comes twice in what is restored. -/
theorem nodup_savedPattern (orders : List Int) : (savedPattern orders).Nodup := by
  rw [savedPattern_eq, List.Nodup, List.pairwise_map]
  have hsorted : Ordered (visits orders.zipIdx []) := Ordered.visits List.Pairwise.nil
  apply List.Pairwise.imp_of_mem _ hsorted
  intro a b ha hb hlt heq
  have hplace : ∀ e ∈ visits orders.zipIdx [], orders[e.2]? = some e.1 := by
    intro e he
    rcases mem_of_mem_visits List.Pairwise.nil he with hnil | hzip
    · cases hnil
    · exact List.mem_zipIdx_iff_getElem?.mp hzip
  have horder : a.1 = b.1 := by
    have := (hplace a ha).symm.trans ((congrArg (orders[·]?) heq).trans (hplace b hb))
    exact Option.some.inj this
  exact absurd horder (ne_of_lt hlt)

/-- Orders that number the dots of a pattern give the pattern back. -/
theorem savedPattern_of_numbered {orders : List Int} {pattern : List Nat}
    (h : ∀ (order : Int) (dot : Nat), orders[dot]? = some order ∧ 0 < order ↔
      ∃ i : Nat, pattern[i]? = some dot ∧ order = i + 1) : savedPattern orders = pattern := by
  have hdistinct : orders.zipIdx.Pairwise fun a b => 0 < a.1 → a.1 ≠ b.1 := by
    have hplaces : orders.zipIdx.Pairwise fun a b => a.2 < b.2 := by
      rw [← List.pairwise_map, List.zipIdx_map_snd]
      exact List.pairwise_lt_range'
    apply List.Pairwise.imp_of_mem _ hplaces
    intro a b ha hb hlt hpos heq
    obtain ⟨i, hi, hai⟩ := (h a.1 a.2).mp ⟨List.mem_zipIdx_iff_getElem?.mp ha, hpos⟩
    obtain ⟨j, hj, hbj⟩ := (h b.1 b.2).mp ⟨List.mem_zipIdx_iff_getElem?.mp hb, heq ▸ hpos⟩
    have hij : i = j := by omega
    rw [hij, hj] at hi
    exact absurd (Option.some.inj hi).symm (Nat.ne_of_lt hlt)
  let numbered : List (Int × Nat) := pattern.zipIdx.map fun e => ((e.2 : Int) + 1, e.1)
  have hnumbered : Ordered numbered := by
    rw [Ordered, List.pairwise_map]
    have hplaces : pattern.zipIdx.Pairwise fun a b => a.2 < b.2 := by
      rw [← List.pairwise_map, List.zipIdx_map_snd]
      exact List.pairwise_lt_range'
    exact hplaces.imp fun hlt => by omega
  have hsorted : Ordered (visits orders.zipIdx []) := Ordered.visits List.Pairwise.nil
  have hmem : ∀ e, e ∈ visits orders.zipIdx [] ↔ e ∈ numbered := by
    rintro ⟨order, dot⟩
    rw [mem_visits List.Pairwise.nil hdistinct (by simp), List.mem_zipIdx_iff_getElem?]
    simp only [List.not_mem_nil, false_or, h]
    simp [numbered, List.mem_zipIdx_iff_getElem?, eq_comm, and_comm]
  have hperm : (visits orders.zipIdx []).Perm numbered := by
    have hnodup : ∀ {l : List (Int × Nat)}, Ordered l → l.Nodup := fun hl =>
      hl.imp fun hlt heq => absurd (congrArg Prod.fst heq) (ne_of_lt hlt)
    exact (List.perm_ext_iff_of_nodup (hnodup hsorted) (hnodup hnumbered)).mpr hmem
  have heq : visits orders.zipIdx [] = numbered :=
    hperm.eq_of_pairwise (fun a b _ _ hab hba => absurd hab (not_lt.mpr hba.le)) hsorted hnumbered
  rw [savedPattern_eq, heq, List.map_map]
  simp [Function.comp_def]

end AllInSafe.AppLock
