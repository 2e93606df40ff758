/-!
# Machines with events, their runs and their invariants

A machine takes one event at a time. An event that cannot happen in a state is disabled there.
-/

namespace AllInSafe.Library

/-- `step s e` is `none` where the event `e` cannot happen in the state `s`. -/
structure Machine (σ ε : Type) where
  init : σ
  step : σ → ε → Option σ

namespace Machine

variable {σ ε : Type} (M : Machine σ ε)

/-- The state after the events of a list, taken in their order. -/
def runFrom (s : σ) : List ε → Option σ
  | [] => some s
  | e :: es => (M.step s e).bind fun s' => runFrom s' es

/-- Every event of the run meets `good` in the state before it. -/
def StepsMeet (good : σ → ε → Prop) (s : σ) : List ε → Prop
  | [] => True
  | e :: es => good s e ∧ ∀ s', M.step s e = some s' → StepsMeet good s' es

variable {M}

instance StepsMeet.decide {good : σ → ε → Prop} [∀ s e, Decidable (good s e)] :
    (s : σ) → (es : List ε) → Decidable (M.StepsMeet good s es)
  | _, [] => isTrue trivial
  | s, e :: es =>
      match h : M.step s e with
      | none => decidable_of_iff (good s e) (by simp [StepsMeet, h])
      | some t =>
          have : Decidable (M.StepsMeet good t es) := StepsMeet.decide t es
          decidable_of_iff (good s e ∧ M.StepsMeet good t es) (by simp [StepsMeet, h])

@[simp] theorem runFrom_nil {s : σ} : M.runFrom s [] = some s := rfl

theorem runFrom_cons {s s' : σ} {e : ε} {es : List ε} :
    M.runFrom s (e :: es) = some s' ↔ ∃ t, M.step s e = some t ∧ M.runFrom t es = some s' := by
  simp [runFrom, Option.bind_eq_some_iff]

theorem runFrom_append {s s' : σ} {as bs : List ε} :
    M.runFrom s (as ++ bs) = some s' ↔ ∃ t, M.runFrom s as = some t ∧ M.runFrom t bs = some s' := by
  induction as generalizing s with
  | nil => simp
  | cons e as ih =>
      simp only [List.cons_append, runFrom_cons, ih]
      constructor
      · rintro ⟨t, ht, u, hu, hs⟩; exact ⟨u, ⟨t, ht, hu⟩, hs⟩
      · rintro ⟨u, ⟨t, ht, hu⟩, hs⟩; exact ⟨t, ht, u, hu, hs⟩

theorem StepsMeet.append_left {good : σ → ε → Prop} {s : σ} {as bs : List ε}
    (h : M.StepsMeet good s (as ++ bs)) : M.StepsMeet good s as := by
  induction as generalizing s with
  | nil => trivial
  | cons e as ih => exact ⟨h.1, fun t ht => ih (h.2 t ht)⟩

theorem StepsMeet.append_right {good : σ → ε → Prop} {s t : σ} {as bs : List ε}
    (h : M.StepsMeet good s (as ++ bs)) (ht : M.runFrom s as = some t) : M.StepsMeet good t bs := by
  induction as generalizing s with
  | nil => cases ht; exact h
  | cons e as ih =>
      obtain ⟨u, hu, hut⟩ := runFrom_cons.mp ht
      exact ih (h.2 u hu) hut

theorem StepsMeet.and_events {good : σ → ε → Prop} {P : ε → Prop} {s : σ} {es : List ε}
    (h : M.StepsMeet good s es) (hP : ∀ e ∈ es, P e) : M.StepsMeet (fun s e => good s e ∧ P e) s es := by
  induction es generalizing s with
  | nil => trivial
  | cons e es ih =>
      rw [List.forall_mem_cons] at hP
      exact ⟨⟨h.1, hP.1⟩, fun t ht => ih (h.2 t ht) hP.2⟩

/-- What every step that meets `good` preserves, every run of such steps preserves. -/
theorem StepsMeet.invariant {good : σ → ε → Prop} {I : σ → Prop}
    (hstep : ∀ s e s', I s → good s e → M.step s e = some s' → I s') {s s' : σ} {es : List ε}
    (hgood : M.StepsMeet good s es) (hs : I s) (hrun : M.runFrom s es = some s') : I s' := by
  induction es generalizing s with
  | nil => cases hrun; exact hs
  | cons e es ih =>
      obtain ⟨t, ht, hts⟩ := runFrom_cons.mp hrun
      exact ih (hgood.2 t ht) (hstep s e t hs hgood.1 ht) hts

/-- What every step preserves, every run preserves. -/
theorem invariant {I : σ → Prop} (hstep : ∀ s e s', I s → M.step s e = some s' → I s')
    {s s' : σ} {es : List ε} (hs : I s) (hrun : M.runFrom s es = some s') : I s' := by
  induction es generalizing s with
  | nil => cases hrun; exact hs
  | cons e es ih =>
      obtain ⟨t, ht, hts⟩ := runFrom_cons.mp hrun
      exact ih (hstep s e t hs ht) hts

/-- What every step preserves while it lowers a measure: a run keeps it, and is no longer than the measure. -/
theorem measure_bounds {I : σ → Prop} {μ : σ → Nat}
    (hstep : ∀ s e s', I s → M.step s e = some s' → I s' ∧ μ s' < μ s) {s s' : σ} {es : List ε}
    (hs : I s) (hrun : M.runFrom s es = some s') : I s' ∧ es.length + μ s' ≤ μ s := by
  induction es generalizing s with
  | nil => cases hrun; simp [hs]
  | cons e es ih =>
      obtain ⟨t, ht, hts⟩ := runFrom_cons.mp hrun
      obtain ⟨hIt, hlt⟩ := hstep s e t hs ht
      obtain ⟨hIs', hle⟩ := ih hIt hts
      simp [hIs']
      omega

variable (M) in
/-- No run is longer than some bound, and a run that cannot go on has finished. -/
def Ends (finished : σ → Prop) : Prop :=
  ∃ bound, ∀ es s, M.runFrom M.init es = some s →
    es.length ≤ bound ∧ (finished s ∨ ∃ e s', M.step s e = some s')

/-- A machine ends when each step lowers a measure and only the finished states have no step. -/
theorem ends_of_measure {I finished : σ → Prop} {μ : σ → Nat} (hinit : I M.init)
    (hstep : ∀ s e s', I s → M.step s e = some s' → I s' ∧ μ s' < μ s)
    (hprogress : ∀ s, I s → ¬ finished s → ∃ e s', M.step s e = some s') : M.Ends finished := by
  refine ⟨μ M.init, fun es s hrun => ?_⟩
  obtain ⟨hI, hle⟩ := measure_bounds hstep hinit hrun
  refine ⟨by omega, ?_⟩
  by_cases hfinished : finished s
  · exact .inl hfinished
  · exact .inr (hprogress s hI hfinished)

/-- Where some step lowers a measure in every state that is not finished, some run comes to a finished one. -/
theorem exists_finished {I finished : σ → Prop} {μ : σ → Nat}
    (hstep : ∀ s, I s → ¬ finished s → ∃ e s', M.step s e = some s' ∧ I s' ∧ μ s' < μ s) {s : σ} (hs : I s) :
    ∃ es s', M.runFrom s es = some s' ∧ I s' ∧ finished s' := by
  induction hμ : μ s using Nat.strongRecOn generalizing s with
  | ind k ih =>
      by_cases hfinished : finished s
      · exact ⟨[], s, rfl, hs, hfinished⟩
      · obtain ⟨e, t, ht, hIt, hlt⟩ := hstep s hs hfinished
        obtain ⟨es, s', hrun, hend⟩ := ih (μ t) (hμ ▸ hlt) hIt rfl
        exact ⟨e :: es, s', runFrom_cons.mpr ⟨t, ht, hrun⟩, hend⟩

/-- Where a property of the states is lost by exactly the steps that do not meet `good`, a run keeps it exactly when
all of its steps meet `good`. -/
theorem meets_iff {good : σ → ε → Prop} {I P : σ → Prop}
    (hstep : ∀ s e s', I s → M.step s e = some s' → I s' ∧ (P s' ↔ P s ∧ good s e)) {s s' : σ} {es : List ε}
    (hs : I s) (hrun : M.runFrom s es = some s') : P s' ↔ P s ∧ M.StepsMeet good s es := by
  induction es generalizing s with
  | nil => cases hrun; simp [StepsMeet]
  | cons e es ih =>
      obtain ⟨t, ht, hts⟩ := runFrom_cons.mp hrun
      obtain ⟨hIt, hPt⟩ := hstep s e t hs ht
      simp [StepsMeet, ih hIt hts, hPt, ht, and_assoc]

/-- Where a step that does not meet `good` loses a property at once, it holds in every state of a run exactly when all
steps meet `good`. -/
theorem always_iff {good : σ → ε → Prop} {I P : σ → Prop} (hI : ∀ s, I s → P s)
    (hstep : ∀ s e s', I s → M.step s e = some s' → (P s' → good s e) ∧ (good s e → I s')) {s s' : σ} {es : List ε}
    (hs : I s) (hrun : M.runFrom s es = some s') :
    (∀ as bs t, es = as ++ bs → M.runFrom s as = some t → P t) ↔ M.StepsMeet good s es := by
  induction es generalizing s with
  | nil =>
      refine ⟨fun _ => trivial, fun _ as bs t hes ht => ?_⟩
      obtain ⟨rfl, -⟩ := List.append_eq_nil_iff.mp hes.symm
      cases ht
      exact hI s hs
  | cons e es ih =>
      obtain ⟨t, ht, hts⟩ := runFrom_cons.mp hrun
      obtain ⟨hlost, hkept⟩ := hstep s e t hs ht
      constructor
      · intro h
        have hgood : good s e := hlost (h [e] es t rfl (runFrom_cons.mpr ⟨t, ht, rfl⟩))
        refine ⟨hgood, fun u hu => ?_⟩
        cases Option.some.inj (ht.symm.trans hu)
        refine (ih (hkept hgood) hts).mp fun as bs u hes hu => ?_
        exact h (e :: as) bs u (by rw [hes]; rfl) (runFrom_cons.mpr ⟨t, ht, hu⟩)
      · rintro ⟨hgood, hmeet⟩ as bs u hes hu
        cases as with
        | nil => cases hu; exact hI s hs
        | cons a as =>
            obtain ⟨rfl, htail⟩ := List.cons.inj hes
            obtain ⟨v, hv, hvu⟩ := runFrom_cons.mp hu
            cases Option.some.inj (ht.symm.trans hv)
            exact (ih (hkept hgood) hts).mpr (hmeet t ht) as bs u htail hvu

/-- Two conditions on the steps that agree in every state of an invariant, which the steps that meet them keep. -/
theorem stepsMeet_congr {good safe : σ → ε → Prop} {I : σ → Prop}
    (hstep : ∀ s e s', I s → M.step s e = some s' → (safe s e ↔ good s e) ∧ (good s e → I s')) {s s' : σ} {es : List ε}
    (hs : I s) (hrun : M.runFrom s es = some s') : M.StepsMeet safe s es ↔ M.StepsMeet good s es := by
  induction es generalizing s with
  | nil => rfl
  | cons e es ih =>
      obtain ⟨t, ht, hts⟩ := runFrom_cons.mp hrun
      obtain ⟨hiff, hkept⟩ := hstep s e t hs ht
      constructor
      · rintro ⟨hsafe, hrest⟩
        refine ⟨hiff.mp hsafe, fun u hu => ?_⟩
        cases Option.some.inj (ht.symm.trans hu)
        exact (ih (hkept (hiff.mp hsafe)) hts).mp (hrest t ht)
      · rintro ⟨hgood, hrest⟩
        refine ⟨hiff.mpr hgood, fun u hu => ?_⟩
        cases Option.some.inj (ht.symm.trans hu)
        exact (ih (hkept hgood) hts).mpr (hrest t ht)

end Machine

end AllInSafe.Library
