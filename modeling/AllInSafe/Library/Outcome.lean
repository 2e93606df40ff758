/-!
# What a function returns or throws
-/

namespace AllInSafe.Library

variable {ε α β σ : Type}

/-- The function returns a value in `Q` or throws an exception in `E`. -/
def Outcome (Q : α → Prop) (E : ε → Prop) (m : Except ε α) : Prop :=
  match m with
  | .ok a => Q a
  | .error e => E e

/-- Two functions one after the other return where the first one returns and the second one does on its value. -/
theorem bind_eq_ok {m : Except ε α} {f : α → Except ε β} {b : β} :
    m >>= f = .ok b ↔ ∃ a, m = .ok a ∧ f a = .ok b := by
  cases m with
  | error e => simp [bind, Except.bind]
  | ok a => simp [bind, Except.bind]

namespace Outcome

variable {Q : α → Prop} {E : ε → Prop} {m : Except ε α}

theorem ok {a : α} (h : Q a) : Outcome Q E (.ok a) := h

theorem error {e : ε} (h : E e) : Outcome Q E (.error e) := h

theorem bind {R : β → Prop} {f : α → Except ε β} (hm : Outcome Q E m) (hf : ∀ a, Q a → Outcome R E (f a)) :
    Outcome R E (m >>= f) := by
  cases m with
  | ok a => exact hf a hm
  | error e => exact hm

theorem map {R : β → Prop} {f : α → β} (hm : Outcome Q E m) (hf : ∀ a, Q a → R (f a)) : Outcome R E (m.map f) := by
  cases m with
  | ok a => exact hf a hm
  | error e => exact hm

theorem throws (h : Outcome Q E m) {e : ε} (hm : m = .error e) : E e := by
  rw [hm] at h
  exact h

end Outcome

/-! ## Folds that let a state grow -/

/-- The state stayed as it is, or its size grew. -/
def Grown (size : σ → Nat) (s s' : σ) : Prop := s' = s ∨ size s < size s'

namespace Grown

variable {size : σ → Nat} {s t u : σ}

theorem refl : Grown size s s := .inl rfl

theorem le (h : Grown size s t) : size s ≤ size t := by
  rcases h with rfl | h
  · exact Nat.le_refl _
  · exact Nat.le_of_lt h

theorem trans (h : Grown size s t) (h' : Grown size t u) : Grown size s u := by
  rcases h with rfl | h
  · exact h'
  · exact .inr (Nat.lt_of_lt_of_le h h'.le)

/-- What is back at its start never grew. -/
theorem eq_of_trans (h : Grown size s t) (h' : Grown size t s) : t = s := by
  rcases h with h | h
  · exact h
  · exact absurd (Nat.lt_of_lt_of_le h h'.le) (Nat.lt_irrefl _)

/-- A fold of steps that let the state grow lets it grow, and leaves it only where no step changes it. -/
theorem foldlM (size : σ → Nat) {f : σ → α → Except ε σ} {I : σ → Prop} {as : List α} {s' : σ}
    (hstep : ∀ s a t, I s → f s a = .ok t → I t ∧ Grown size s t) (hs : I s) (hrun : as.foldlM f s = .ok s') :
    I s' ∧ Grown size s s' ∧ (s' = s ↔ ∀ a ∈ as, ∀ t, f s a = .ok t → t = s) := by
  induction as generalizing s with
  | nil =>
      cases hrun
      exact ⟨hs, refl, by simp⟩
  | cons a as ih =>
      rw [List.foldlM_cons, bind_eq_ok] at hrun
      obtain ⟨t, ha, hrun⟩ := hrun
      obtain ⟨ht, hgrown⟩ := hstep s a t hs ha
      obtain ⟨hs', hgrown', hiff⟩ := ih ht hrun
      refine ⟨hs', hgrown.trans hgrown', ?_⟩
      rw [List.forall_mem_cons, ha]
      constructor
      · rintro rfl
        obtain rfl := hgrown.eq_of_trans hgrown'
        exact ⟨fun u hu => (Except.ok.inj hu).symm, hiff.mp rfl⟩
      · rintro ⟨ht', has⟩
        obtain rfl := ht' t rfl
        exact hiff.mpr has

end Grown

end AllInSafe.Library
