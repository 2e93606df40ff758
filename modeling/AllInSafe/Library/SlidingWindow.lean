import Mathlib.Data.List.Sort
import Mathlib.Data.List.TakeWhile
import Mathlib.Order.Basic
import Mathlib.Tactic.Common

/-!
# Sliding windows

A list that grows at its end by the entries of a history in the order of their keys, and is pruned lazily at its front.
-/

namespace AllInSafe.Library

/-- Where what is dropped never stands behind what is kept, the front of a list holds all that is dropped. -/
theorem dropWhile_eq_filter {α : Type} {p : α → Bool} {xs : List α}
    (h : xs.Pairwise fun a b => p b = true → p a = true) : xs.dropWhile p = xs.filter fun x => !p x := by
  induction xs with
  | nil => rfl
  | cons x xs ih =>
      obtain ⟨hx, hxs⟩ := List.pairwise_cons.mp h
      cases hp : p x with
      | true => simp [hp, ih hxs]
      | false =>
          have hkept : ∀ y ∈ xs, p y = false := by
            intro y hy
            by_contra hdropped
            exact absurd (hx y hy (by simpa using hdropped)) (by simp [hp])
          have hself : xs.filter (fun y => !p y) = xs := List.filter_eq_self.mpr fun y hy => by simp [hkept y hy]
          simp [hp, hself]

namespace SlidingWindow

variable {α κ : Type} [LinearOrder κ] {key : α → κ} {limits : List κ} {history window : List α} {limit : κ}

variable (key) in
/-- The window is the end of the history, and what has left it is at or before one of the limits. -/
def Holds (limits : List κ) (history window : List α) : Prop :=
  ∃ gone, history = gone ++ window ∧ ∀ x ∈ gone, ∃ limit ∈ limits, key x ≤ limit

theorem holds_nil : Holds key limits [] [] := ⟨[], rfl, by simp⟩

theorem Holds.append (h : Holds key limits history window) (xs : List α) :
    Holds key limits (history ++ xs) (window ++ xs) := by
  obtain ⟨gone, rfl, hgone⟩ := h
  exact ⟨gone, by simp, hgone⟩

theorem Holds.mono {more : List κ} (h : Holds key limits history window) (hmore : ∀ t ∈ limits, t ∈ more) :
    Holds key more history window := by
  obtain ⟨gone, hhistory, hgone⟩ := h
  refine ⟨gone, hhistory, fun x hx => ?_⟩
  obtain ⟨t, ht, hle⟩ := hgone x hx
  exact ⟨t, hmore t ht, hle⟩

variable (key) in
/-- The entries at or before the limit leave the window at its front. -/
def prune (limit : κ) (window : List α) : List α := window.dropWhile fun x => decide (key x ≤ limit)

theorem Holds.prune (h : Holds key limits history window) (hlimit : limit ∈ limits) :
    Holds key limits history (prune key limit window) := by
  obtain ⟨gone, rfl, hgone⟩ := h
  refine ⟨gone ++ window.takeWhile fun x => decide (key x ≤ limit), ?_, ?_⟩
  · simp [SlidingWindow.prune, List.takeWhile_append_dropWhile]
  · intro x hx
    rcases List.mem_append.mp hx with hx | hx
    · exact hgone x hx
    · exact ⟨limit, hlimit, by simpa using List.mem_takeWhile_imp hx⟩

/-- When the limits do not go back, a pruned window holds the entries after the limit, all of them. -/
theorem Holds.prune_eq (h : Holds key limits history window) (hsorted : history.Pairwise fun a b => key a ≤ key b)
    (hlimits : ∀ t ∈ limits, t ≤ limit) :
    SlidingWindow.prune key limit window = history.filter fun x => decide (limit < key x) := by
  obtain ⟨gone, rfl, hgone⟩ := h
  have hkept : (window.filter fun x => decide (limit < key x)) = SlidingWindow.prune key limit window := by
    have hdown : window.Pairwise fun a b => decide (key b ≤ limit) = true → decide (key a ≤ limit) = true := by
      apply (List.pairwise_append.mp hsorted).2.1.imp
      intro a b hab hb
      simpa using le_trans hab (by simpa using hb)
    rw [SlidingWindow.prune, dropWhile_eq_filter hdown]
    apply List.filter_congr
    intro x _
    simp [← not_le]
  have hnone : (gone.filter fun x => decide (limit < key x)) = [] := by
    rw [List.filter_eq_nil_iff]
    intro x hx
    obtain ⟨t, ht, hle⟩ := hgone x hx
    simpa using le_trans hle (hlimits t ht)
  rw [List.filter_append, hnone, List.nil_append, hkept]

end SlidingWindow

end AllInSafe.Library
