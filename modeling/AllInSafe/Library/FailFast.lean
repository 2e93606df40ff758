import Mathlib.Data.List.Sort
import Mathlib.Tactic.Common

/-!
# Fail-fast iteration

A loop over a collection that its own body may modify. The iterator knows how often the collection had been modified
when it was created, and gives no further element of a collection that has been modified since.
-/

namespace AllInSafe.Library

/-- A set by the order of its iterator, with the number of its modifications. -/
structure FailFast (α : Type) where
  elements : List α
  nodup : elements.Nodup
  modCount : Nat := 0

/-- What ends a loop early: an exception of its body, or the iterator's own. -/
inductive Fault (ε : Type)
  | body (e : ε)
  | concurrentModification
  deriving DecidableEq, Repr

/-- The state that a loop leaves, also where an exception ends it. -/
inductive Ending (σ ε : Type)
  | ended (s : σ)
  | thrown (e : ε) (s : σ)
  deriving DecidableEq, Repr

namespace Ending

variable {σ τ ε : Type}

def andThen (f : σ → Ending σ ε) : Ending σ ε → Ending σ ε
  | .ended s => f s
  | .thrown e s => .thrown e s

@[simp] theorem andThen_ended {f : σ → Ending σ ε} {s : σ} : (Ending.ended s).andThen f = f s := rfl

@[simp] theorem andThen_thrown {f : σ → Ending σ ε} {e : ε} {s : σ} : (Ending.thrown e s).andThen f = .thrown e s := rfl

end Ending

namespace FailFast

variable {α σ ε : Type}

/-! ## Removals -/

section
variable [DecidableEq α]

def remove (x : α) (c : FailFast α) : FailFast α :=
  if x ∈ c.elements then ⟨c.elements.erase x, c.nodup.erase x, c.modCount + 1⟩ else c

theorem elements_remove (x : α) (c : FailFast α) :
    (c.remove x).elements = c.elements.filter fun y => decide (y ≠ x) := by
  simp only [remove]
  split_ifs with hx
  · simp [c.nodup.erase_eq_filter x, bne]
    congr
  · symm
    apply List.filter_eq_self.mpr
    intro y hy
    have hne : y ≠ x := fun h => hx (h ▸ hy)
    simpa using hne

theorem modCount_remove {x : α} {c : FailFast α} (h : x ∈ c.elements) : (c.remove x).modCount = c.modCount + 1 := by
  simp [remove, h]

end

/-! ## Loops -/

/-- The loop over the elements that are left, with an iterator that was created at `expectedModCount`. -/
def iterate (modCount : σ → Nat) (body : σ → α → Except ε σ) (expectedModCount : Nat) (s : σ) :
    List α → Ending σ (Fault ε)
  | [] => .ended s
  | x :: rest =>
      if modCount s ≠ expectedModCount then .thrown .concurrentModification s
      else
        match body s x with
        | .ok s => iterate modCount body expectedModCount s rest
        | .error e => .thrown (.body e) s

/-- The elements that a loop takes: up to the first one whose turn modifies the collection. -/
def taken (modifies : α → Prop) [DecidablePred modifies] : List α → List α
  | [] => []
  | x :: xs => if modifies x then [x] else x :: taken modifies xs

section
variable {modifies : α → Prop} [DecidablePred modifies]

theorem taken_cons_of_modifies {x : α} {xs : List α} (h : modifies x) : taken modifies (x :: xs) = [x] := by
  simp [taken, h]

theorem taken_cons_of_not {x : α} {xs : List α} (h : ¬ modifies x) :
    taken modifies (x :: xs) = x :: taken modifies xs := by
  simp [taken, h]

/-- A loop whose body throws nothing, and counts a modification exactly at the elements of `modifies`: it takes the
elements up to the first of these, and ends there by an exception unless none is left. -/
theorem iterate_eq {modCount : σ → Nat} {body : σ → α → Except ε σ} {turn : σ → α → σ} {I : List α → σ → Prop}
    (hbody : ∀ x xs s, I (x :: xs) s → body s x = .ok (turn s x) ∧ I xs (turn s x) ∧
      modCount (turn s x) = modCount s + if modifies x then 1 else 0) {s : σ} {xs : List α} (hs : I xs s) :
    iterate modCount body (modCount s) s xs =
      if ∀ x ∈ xs.dropLast, ¬ modifies x then .ended (xs.foldl turn s)
      else .thrown .concurrentModification ((taken modifies xs).foldl turn s) := by
  induction xs generalizing s with
  | nil => simp [iterate]
  | cons x xs ih =>
      obtain ⟨hok, hI, hcount⟩ := hbody x xs s hs
      by_cases hx : modifies x
      · -- the next element, if there is one, is refused
        cases xs with
        | nil => simp [iterate, hok]
        | cons y ys => simp [iterate, hok, hcount, hx, taken_cons_of_modifies]
      · have hsame : modCount (turn s x) = modCount s := by simpa [hx] using hcount
        have hrest := ih hI
        rw [hsame] at hrest
        cases xs with
        | nil => simp [iterate, hok]
        | cons y ys => simp [iterate, hok, hsame, hx, taken_cons_of_not] at hrest ⊢; exact hrest

end

end FailFast

end AllInSafe.Library
