import Mathlib.Data.List.Induction
import Mathlib.Data.List.Sort
import Mathlib.Order.Basic

/-!
# The first element of each key

In a list that is sorted by the key, the last element that was first of its key tells whether the next one is.
-/

namespace AllInSafe.Library.FirstOf

variable {α κ : Type}

/-- The elements with a key that no element before them has. -/
def firstOf [DecidableEq κ] (key : α → κ) (l : List α) : List α :=
  l.foldl (fun firsts a => if firsts.any fun b => key b = key a then firsts else firsts ++ [a]) []

section
variable [DecidableEq κ] {key : α → κ} {l : List α} {a : α}

@[simp] theorem firstOf_nil : firstOf key [] = [] := rfl

theorem firstOf_concat (l : List α) (a : α) : firstOf key (l ++ [a]) =
    if (firstOf key l).any fun b => key b = key a then firstOf key l else firstOf key l ++ [a] := by
  simp [firstOf, List.foldl_append]

theorem firstOf_sublist (l : List α) : (firstOf key l).Sublist l := by
  induction l using List.reverseRecOn with
  | nil => exact List.Sublist.refl []
  | append_singleton l a ih =>
      rw [firstOf_concat]
      split
      · exact ih.trans (List.sublist_append_left l [a])
      · exact ih.append (List.Sublist.refl [a])

theorem exists_mem_firstOf (ha : a ∈ l) : ∃ b ∈ firstOf key l, key b = key a := by
  induction l using List.reverseRecOn with
  | nil => cases ha
  | append_singleton l c ih =>
      rw [firstOf_concat]
      rcases List.mem_append.mp ha with ha | ha
      · obtain ⟨b, hb, he⟩ := ih ha
        split
        · exact ⟨b, hb, he⟩
        · exact ⟨b, List.mem_append_left [c] hb, he⟩
      · rw [List.mem_singleton.mp ha]
        split
        · rename_i hany
          simpa using hany
        · exact ⟨c, by simp, rfl⟩

/-- No two elements have the same key. -/
theorem firstOf_pairwise (l : List α) : (firstOf key l).Pairwise fun a b => key a ≠ key b := by
  induction l using List.reverseRecOn with
  | nil => exact List.Pairwise.nil
  | append_singleton l a ih =>
      rw [firstOf_concat]
      split
      · exact ih
      · rename_i hnew
        simp only [List.any_eq_true, decide_eq_true_eq, not_exists, not_and] at hnew
        refine List.pairwise_append.mpr ⟨ih, List.pairwise_singleton _ a, fun b hb c hc => ?_⟩
        rw [List.mem_singleton.mp hc]
        exact hnew b hb

end

section
variable [LinearOrder κ] {key : α → κ} {l : List α} {a m : α}

theorem mem_of_getLast_firstOf (hm : (firstOf key l).getLast? = some m) : m ∈ l :=
  (@firstOf_sublist α κ _ key l).subset (List.mem_of_getLast? hm)

/-- The last of the firsts has the greatest key. -/
theorem le_last_firstOf (h : l.Pairwise fun a b => key a ≤ key b) (hm : (firstOf key l).getLast? = some m) :
    ∀ b ∈ firstOf key l, key b ≤ key m := by
  obtain ⟨init, hinit⟩ := List.getLast?_eq_some_iff.mp hm
  have hsorted := h.sublist (@firstOf_sublist α κ _ key l)
  rw [hinit] at hsorted ⊢
  obtain ⟨-, -, hcross⟩ := List.pairwise_append.mp hsorted
  intro b hb
  rcases List.mem_append.mp hb with hb | hb
  · exact hcross b hb m List.mem_cons_self
  · rw [List.mem_singleton.mp hb]

theorem firstOf_concat_of_last (h : (l ++ [a]).Pairwise fun a b => key a ≤ key b)
    (hm : (firstOf key l).getLast? = some m) :
    firstOf key (l ++ [a]) = if key m < key a then firstOf key l ++ [a] else firstOf key l := by
  obtain ⟨hl, -, hcross⟩ := List.pairwise_append.mp h
  have hma : key m ≤ key a := hcross m (mem_of_getLast_firstOf hm) a List.mem_cons_self
  have hany : ((firstOf key l).any fun b => key b = key a) = true ↔ ¬ key m < key a := by
    simp only [List.any_eq_true, decide_eq_true_eq, not_lt]
    constructor
    · rintro ⟨b, hb, he⟩
      rw [← he]
      exact le_last_firstOf hl hm b hb
    · exact fun hle => ⟨m, List.mem_of_getLast? hm, le_antisymm hma hle⟩
  rw [firstOf_concat]
  by_cases hlt : key m < key a
  · rw [if_neg (mt hany.mp (not_not.mpr hlt)), if_pos hlt]
  · rw [if_pos (hany.mpr hlt), if_neg hlt]

theorem le_key_last (h : l.Pairwise fun a b => key a ≤ key b) (hm : (firstOf key l).getLast? = some m) :
    ∀ a ∈ l, key a ≤ key m := by
  intro a ha
  obtain ⟨b, hb, he⟩ : ∃ b ∈ firstOf key l, key b = key a := exists_mem_firstOf ha
  rw [← he]
  exact le_last_firstOf h hm b hb

end

end AllInSafe.Library.FirstOf
