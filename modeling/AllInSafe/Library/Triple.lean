import Mathlib

/-!
# Programs that fail in the middle

A program that throws keeps the state it has reached, so what holds of every failure holds wherever the program
may stop.
-/

namespace AllInSafe.Library

variable {ε σ α β : Type}

/-- From a state in `P` the program returns in `Q` or fails in `E`. -/
def Triple (P : σ → Prop) (m : EStateM ε σ α) (Q : α → σ → Prop) (E : ε → σ → Prop) : Prop :=
  ∀ s, P s → match m s with
    | .ok a t => Q a t
    | .error e t => E e t

namespace Triple

variable {P : σ → Prop} {m : EStateM ε σ α} {Q : α → σ → Prop} {E : ε → σ → Prop}

theorem pure {a : α} (h : ∀ s, P s → Q a s) : Triple P (Pure.pure a) Q E := h

theorem throw {e : ε} (h : ∀ s, P s → E e s) : Triple P (MonadExcept.throw e : EStateM ε σ α) Q E := h

theorem modify {f : σ → σ} {Q : PUnit → σ → Prop} (h : ∀ s, P s → Q ⟨⟩ (f s)) :
    Triple P (modify f : EStateM ε σ PUnit) Q E := h

theorem get {Q : σ → σ → Prop} (h : ∀ s, P s → Q s s) : Triple P (get : EStateM ε σ σ) Q E := h

theorem bind {f : α → EStateM ε σ β} {R : β → σ → Prop} (hm : Triple P m Q E) (hf : ∀ a, Triple (Q a) (f a) R E) :
    Triple P (m >>= f) R E := by
  intro s hs
  have h := hm s hs
  change match (EStateM.bind m f) s with | .ok a t => R a t | .error e t => E e t
  unfold EStateM.bind
  cases hms : m s with
  | ok a t => rw [hms] at h; exact hf a t h
  | error e t => rw [hms] at h; exact h

theorem tryCatch {h : ε → EStateM ε σ α} {F : ε → σ → Prop} (hm : Triple P m Q F) (hh : ∀ e, Triple (F e) (h e) Q E) :
    Triple P (MonadExcept.tryCatch m h) Q E := by
  intro s hs
  have hp := hm s hs
  change match (EStateM.tryCatch m h) s with | .ok a t => Q a t | .error e t => E e t
  unfold EStateM.tryCatch
  cases hms : m s with
  | ok a t => rw [hms] at hp; exact hp
  | error e t => rw [hms] at hp; exact hh e t hp

theorem ite {c : Prop} [Decidable c] {n : EStateM ε σ α} (hm : c → Triple P m Q E) (hn : ¬ c → Triple P n Q E) :
    Triple P (if c then m else n) Q E := by
  split
  · exact hm ‹_›
  · exact hn ‹_›

theorem mono {P' : σ → Prop} {Q' : α → σ → Prop} {E' : ε → σ → Prop} (h : Triple P m Q E)
    (hP : ∀ s, P' s → P s) (hQ : ∀ a s, Q a s → Q' a s) (hE : ∀ e s, E e s → E' e s) : Triple P' m Q' E' := by
  intro s hs
  have hm := h s (hP s hs)
  cases hms : m s with
  | ok a t => rw [hms] at hm; exact hQ a t hm
  | error e t => rw [hms] at hm; exact hE e t hm

end Triple

/-! ## Runs from one state -/

variable {s t : σ} {a : α} {e : ε} {m : EStateM ε σ α} {f : α → EStateM ε σ β} {h : ε → EStateM ε σ α}

theorem bind_ok (hm : m s = .ok a t) : (m >>= f) s = f a t := by
  change EStateM.bind m f s = f a t
  simp [EStateM.bind, hm]

theorem bind_error (hm : m s = .error e t) : (m >>= f) s = .error e t := by
  change EStateM.bind m f s = .error e t
  simp [EStateM.bind, hm]

theorem tryCatch_ok (hm : m s = .ok a t) : (tryCatch m h : EStateM ε σ α) s = .ok a t := by
  change EStateM.tryCatch m h s = .ok a t
  simp [EStateM.tryCatch, hm]

theorem tryCatch_error (hm : m s = .error e t) : (tryCatch m h : EStateM ε σ α) s = h e t := by
  change EStateM.tryCatch m h s = h e t
  simp [EStateM.tryCatch, hm, EStateM.Backtrackable.restore, EStateM.dummyRestore]

end AllInSafe.Library
