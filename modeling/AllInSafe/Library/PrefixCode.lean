import Mathlib.Data.List.Basic
import Mathlib.Tactic.Common

/-!
# Codes that are told apart by their beginnings
-/

namespace AllInSafe.Library

/-- The code of a valid element says where it ends. -/
def PrefixFree {α β : Type} (valid : α → Prop) (encode : α → List β) : Prop :=
  ∀ a b t u, valid a → valid b → encode a ++ t = encode b ++ u → a = b

variable {α β : Type} {valid : α → Prop} {encode : α → List β} {as bs : List α} {t u : List β}

/-- Where a stream has been read up to some element, what is left is the code of the other elements. -/
theorem PrefixFree.rest (hfree : PrefixFree valid encode) (hend : ∀ a t, valid a → u ≠ encode a ++ t)
    (has : ∀ a ∈ as, valid a) (hbs : ∀ b ∈ bs, valid b) (h : as.flatMap encode ++ t = bs.flatMap encode ++ u) :
    ∃ rest, bs = as ++ rest ∧ t = rest.flatMap encode ++ u := by
  induction as generalizing bs with
  | nil => exact ⟨bs, rfl, h⟩
  | cons a as ih =>
      obtain ⟨ha, has⟩ := List.forall_mem_cons.mp has
      rw [List.flatMap_cons, List.append_assoc] at h
      cases bs with
      | nil => exact absurd h.symm (hend a _ ha)
      | cons b bs =>
          obtain ⟨hb, hrest⟩ := List.forall_mem_cons.mp hbs
          rw [List.flatMap_cons, List.append_assoc] at h
          obtain rfl := hfree a b _ _ ha hb h
          obtain ⟨rest, rfl, ht⟩ := ih has hrest (List.append_cancel_left h)
          exact ⟨rest, rfl, ht⟩

end AllInSafe.Library
