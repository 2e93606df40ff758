import Mathlib

/-!
# Elements that keep their places

A list is numbered, some elements are left out and the rest may be put in another order.
-/

namespace AllInSafe.Library

variable {α : Type} {p : α → Bool} {l : List α}

/-- The elements that are kept, with their places in the whole list. -/
def kept (p : α → Bool) (l : List α) : List (Nat × α) := (l.zipIdx.map fun e => (e.2, e.1)).filter fun e => p e.2

/-- The number of an element is its place. -/
def InPlace (l : List (Nat × α)) : Prop := ∀ (k : Nat) (e : Nat × α), l[k]? = some e → e.1 = k

theorem mem_kept {e : Nat × α} : e ∈ kept p l ↔ l[e.1]? = some e.2 ∧ p e.2 = true := by
  obtain ⟨i, a⟩ := e
  simp only [kept, List.mem_filter, List.mem_map, Prod.exists, Prod.mk.injEq, List.mem_zipIdx_iff_getElem?]
  constructor
  · rintro ⟨⟨b, j, hj, rfl, rfl⟩, hp⟩; exact ⟨hj, hp⟩
  · rintro ⟨hi, hp⟩; exact ⟨⟨a, i, hi, rfl, rfl⟩, hp⟩

theorem kept_sorted : (kept p l).Pairwise fun a b => a.1 < b.1 := by
  apply List.Pairwise.filter
  rw [List.pairwise_map]
  have hrange : (l.zipIdx.map Prod.snd).Pairwise (· < ·) := by
    rw [List.zipIdx_map_snd]
    exact List.pairwise_lt_range'
  exact List.pairwise_map.mp hrange

theorem length_kept_le : (kept p l).length ≤ l.length := by
  calc (kept p l).length ≤ (l.zipIdx.map fun e => (e.2, e.1)).length := List.length_filter_le _ _
    _ = l.length := by simp

theorem InPlace.sorted {l : List (Nat × α)} (h : InPlace l) : l.Pairwise fun a b => a.1 < b.1 := by
  rw [List.pairwise_iff_getElem]
  intro i j hi hj hij
  rw [h i l[i] (List.getElem?_eq_getElem hi), h j l[j] (List.getElem?_eq_getElem hj)]
  exact hij

/-- Numbers that increase are in one order only. -/
theorem eq_of_perm_sorted {l l' : List (Nat × α)} (h : l.Perm l') (hl : l.Pairwise fun a b => a.1 < b.1)
    (hl' : l'.Pairwise fun a b => a.1 < b.1) : l = l' := by
  apply h.eq_of_pairwise _ hl hl'
  intro a b _ _ hab hba
  exact absurd (Nat.lt_trans hab hba) (Nat.lt_irrefl _)

theorem kept_cons {a : α} : kept p (a :: l) = (if p a then [(0, a)] else []) ++
    (kept p l).map fun e => (e.1 + 1, e.2) := by
  have hshift : (l.zipIdx 1).map (fun e => (e.2, e.1)) =
      (l.zipIdx.map fun e => (e.2, e.1)).map fun e => (e.1 + 1, e.2) := by
    rw [List.zipIdx_succ (l := l) (i := 0), List.map_map, List.map_map]
    rfl
  have hrest : ∀ m : List (Nat × α), (m.map fun e => (e.1 + 1, e.2)).filter (fun e => p e.2) =
      (m.filter fun e => p e.2).map fun e => (e.1 + 1, e.2) := by
    intro m
    rw [List.filter_map]
    rfl
  simp only [kept, List.zipIdx_cons, List.map_cons, List.filter_cons]
  rw [hshift, hrest]
  by_cases h : p a = true
  · simp only [h, if_true, List.cons_append, List.nil_append]
  · simp only [h, if_false, List.nil_append, Bool.false_eq_true]

/-- The kept elements are at their places exactly when nothing is left out in front of a kept one. -/
theorem inPlace_kept_iff : InPlace (kept p l) ↔ l.Pairwise fun a b => p b = true → p a = true := by
  constructor
  · intro h
    rw [List.pairwise_iff_getElem]
    intro i j hi hj hij hpj
    have hkept : (j, l[j]) ∈ kept p l := mem_kept.mpr ⟨List.getElem?_eq_getElem hj, hpj⟩
    obtain ⟨k, hk⟩ := List.mem_iff_getElem?.mp hkept
    obtain rfl : j = k := h k _ hk
    have hlt : i < (kept p l).length := Nat.lt_trans hij (List.getElem?_eq_some_iff.mp hk).1
    have hat := h i _ (List.getElem?_eq_getElem hlt)
    have hmem := mem_kept.mp (List.getElem_mem hlt)
    rw [hat, List.getElem?_eq_getElem hi, Option.some.injEq] at hmem
    rw [hmem.1]
    exact hmem.2
  · intro h
    induction l with
    | nil => intro k e hk; simp [kept] at hk
    | cons a l ih =>
        rw [List.pairwise_cons] at h
        intro k e hk
        rw [kept_cons] at hk
        by_cases hp : p a = true
        · rw [if_pos hp] at hk
          cases k with
          | zero => simp at hk; rw [← hk]
          | succ k =>
              simp only [List.cons_append, List.nil_append, List.getElem?_cons_succ, List.getElem?_map,
                Option.map_eq_some_iff] at hk
              obtain ⟨e', he', rfl⟩ := hk
              rw [ih h.2 k e' he']
        · have hnone : kept p l = [] := by
            rw [List.eq_nil_iff_forall_not_mem]
            intro e he
            obtain ⟨hget, hpe⟩ := mem_kept.mp he
            exact hp (h.1 e.2 (List.mem_of_getElem? hget) hpe)
          simp [hp, hnone] at hk

/-! ## Removals -/

theorem toFinset_eraseIdx {a : α} [DecidableEq α] (h : l.Nodup) {k : Nat} (ha : l[k]? = some a) :
    (l.eraseIdx k).toFinset = l.toFinset.erase a := by
  obtain ⟨hk, hka⟩ := List.getElem?_eq_some_iff.mp ha
  have hidx : l.idxOf a = k := by rw [← hka]; exact h.idxOf_getElem k hk
  have herase : l.eraseIdx k = l.erase a := (List.erase_eq_eraseIdx_of_idxOf hidx).symm
  ext b
  simp [herase, h.mem_erase_iff]

/-- The removal at a position takes out an element and keeps the others exactly when the element stands there, or is
gone and the position is behind the end. -/
theorem eraseIdx_removes_iff {a : α} (h : l.Nodup) {k : Nat} :
    (a ∉ l.eraseIdx k ∧ ∀ b ∈ l, b ≠ a → b ∈ l.eraseIdx k) ↔ l[k]? = some a ∨ a ∉ l ∧ l.length ≤ k := by
  classical
  have hmem : ∀ b c, l[k]? = some c → (b ∈ l.eraseIdx k ↔ b ≠ c ∧ b ∈ l) := by
    intro b c hc
    rw [← List.mem_toFinset, toFinset_eraseIdx h hc]
    simp
  by_cases hk : k < l.length
  · have hc : l[k]? = some l[k] := List.getElem?_eq_getElem hk
    constructor
    · rintro ⟨-, hothers⟩
      by_contra hnot
      rw [not_or] at hnot
      have hne : l[k] ≠ a := fun heq => hnot.1 (heq ▸ hc)
      exact ((hmem l[k] l[k] hc).mp (hothers l[k] (List.getElem_mem hk) hne)).1 rfl
    · rintro (ha | ⟨-, hlen⟩)
      · exact ⟨fun hin => ((hmem a a ha).mp hin).1 rfl, fun b hb hne => (hmem b a ha).mpr ⟨hne, hb⟩⟩
      · omega
  · have hself : l.eraseIdx k = l := List.eraseIdx_of_length_le (by omega)
    rw [hself]
    constructor
    · rintro ⟨hnot, -⟩
      exact .inr ⟨hnot, by omega⟩
    · rintro (ha | ⟨hnot, -⟩)
      · obtain ⟨hlt, -⟩ := List.getElem?_eq_some_iff.mp ha
        omega
      · exact ⟨hnot, fun b hb _ => hb⟩

end AllInSafe.Library
