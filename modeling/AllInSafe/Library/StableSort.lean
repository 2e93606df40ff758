import Mathlib.Data.List.Sort
import Mathlib.Order.Basic

/-!
# Stable sorting by a key, one element at a time

A list that is sorted by a key is determined by its elements of each key in their order. So an element that is placed
behind those of its key is where a stable sort of all elements puts it. A buffer may drop elements at its front and
still hold the last ones of the sorted list.
-/

namespace AllInSafe.Library.StableSort

variable {α κ : Type} [LinearOrder κ] (key : α → κ)

def Sorted (l : List α) : Prop := l.Pairwise fun a b => key a ≤ key b

/-- Merge sort is stable. -/
def sort (l : List α) : List α := l.mergeSort fun a b => key a ≤ key b

/-- In front of the first element of a larger key. -/
def place (x : α) (l : List α) : List α := l.orderedInsert (fun a b => key a < key b) x

/-- The elements of the key `k`. -/
def ofKey (k : κ) (l : List α) : List α := l.filter fun a => key a = k

variable {key} {x : α} {l l₁ l₂ P S : List α} {k : κ}

@[simp] theorem ofKey_append : ofKey key k (P ++ S) = ofKey key k P ++ ofKey key k S := by simp [ofKey]

/-! ## Sorted lists -/

theorem Sorted.eq_of_ofKey (h₁ : Sorted key l₁) (h₂ : Sorted key l₂) (h : ∀ k, ofKey key k l₁ = ofKey key k l₂) :
    l₁ = l₂ := by
  induction l₁ generalizing l₂ with
  | nil =>
      cases l₂ with
      | nil => rfl
      | cons b l₂ => simpa [ofKey] using h (key b)
  | cons a l₁ ih =>
      cases l₂ with
      | nil => simpa [ofKey] using h (key a)
      | cons b l₂ =>
          obtain ⟨ha, h₁⟩ := List.pairwise_cons.mp h₁
          obtain ⟨hb, h₂⟩ := List.pairwise_cons.mp h₂
          have hab : key a ≤ key b := by
            have hmem : b ∈ ofKey key (key b) (a :: l₁) := by rw [h]; simp [ofKey]
            rcases List.mem_cons.mp (List.mem_filter.mp hmem).1 with rfl | hmem
            · exact le_rfl
            · exact ha b hmem
          have hba : key b ≤ key a := by
            have hmem : a ∈ ofKey key (key a) (b :: l₂) := by rw [← h]; simp [ofKey]
            rcases List.mem_cons.mp (List.mem_filter.mp hmem).1 with rfl | hmem
            · exact le_rfl
            · exact hb a hmem
          have hkey := le_antisymm hab hba
          have hhead := h (key a)
          simp only [ofKey, List.filter_cons, hkey, decide_true, if_true, List.cons.injEq] at hhead
          refine List.cons_eq_cons.mpr ⟨hhead.1, ih h₁ h₂ fun k => ?_⟩
          have hk := h k
          simp only [ofKey, List.filter_cons, hkey] at hk
          split at hk
          · exact (List.cons.inj hk).2
          · exact hk

theorem sort_sorted (l : List α) : Sorted key (sort key l) := by
  have h := @List.pairwise_mergeSort α (fun a b => decide (key a ≤ key b))
    (by simpa using fun a b c => le_trans) (by simpa using fun a b => le_total (key a) (key b)) l
  simpa [Sorted, sort] using h

theorem sort_perm (l : List α) : (sort key l).Perm l := List.mergeSort_perm l _

/-- The sort is stable. -/
theorem ofKey_sort (k : κ) (l : List α) : ofKey key k (sort key l) = ofKey key k l := by
  have hkey : ∀ a ∈ ofKey key k l, key a = k := fun a ha => by simpa using (List.mem_filter.mp ha).2
  have hsorted : (ofKey key k l).Pairwise fun a b => decide (key a ≤ key b) = true :=
    List.pairwise_of_forall_mem_list fun a ha b hb => by simp [hkey a ha, hkey b hb]
  have hsub : (ofKey key k l).Sublist (sort key l) :=
    List.sublist_mergeSort (by simpa using fun a b c => le_trans) (by simpa using fun a b => le_total (key a) (key b))
      hsorted List.filter_sublist
  have hfilter := hsub.filter fun a => decide (key a = k)
  rw [List.filter_eq_self.mpr fun a ha => by simpa using hkey a ha] at hfilter
  exact (hfilter.eq_of_length ((sort_perm l).filter _).length_eq.symm).symm

/-! ## Placing an element -/

theorem place_perm (x : α) (l : List α) : (place key x l).Perm (x :: l) := List.perm_orderedInsert _ x l

theorem length_place (x : α) (l : List α) : (place key x l).length = l.length + 1 := (place_perm x l).length_eq

theorem place_append_left (P : List α) (h : ∀ s ∈ S, key x < key s) : place key x (P ++ S) = place key x P ++ S := by
  induction P with
  | nil =>
      cases S with
      | nil => rfl
      | cons s S => simp [place, h s]
  | cons p P ih =>
      simp only [place, List.cons_append, List.orderedInsert_cons] at ih ⊢
      split
      · rfl
      · rw [ih, List.cons_append]

theorem place_append_right (S : List α) (h : ∀ p ∈ P, key p ≤ key x) : place key x (P ++ S) = P ++ place key x S := by
  induction P with
  | nil => rfl
  | cons p P ih =>
      rw [List.forall_mem_cons] at h
      simp only [place, List.cons_append, List.orderedInsert_cons] at ih ⊢
      rw [if_neg (not_lt.mpr h.1), ih h.2]

theorem place_of_le (h : ∀ a ∈ l, key a ≤ key x) : place key x l = l ++ [x] := by
  have hplace := place_append_right [] h
  rwa [List.append_nil] at hplace

/-- A sorted list has the elements of larger keys at its end. -/
theorem Sorted.exists_split (h : Sorted key l) (k : κ) :
    ∃ P S, l = P ++ S ∧ (∀ p ∈ P, key p ≤ k) ∧ ∀ s ∈ S, k < key s := by
  induction l with
  | nil => exact ⟨[], [], rfl, by simp, by simp⟩
  | cons a l ih =>
      obtain ⟨ha, hl⟩ := List.pairwise_cons.mp h
      rcases le_or_gt (key a) k with hle | hlt
      · obtain ⟨P, S, rfl, hP, hS⟩ := ih hl
        exact ⟨a :: P, S, rfl, by simpa [hle] using hP, hS⟩
      · refine ⟨[], a :: l, rfl, by simp, ?_⟩
        simp only [List.forall_mem_cons]
        exact ⟨hlt, fun s hs => lt_of_lt_of_le hlt (ha s hs)⟩

/-- Between the elements that are not larger and the larger ones. -/
theorem place_split (hP : ∀ p ∈ P, key p ≤ key x) (hS : ∀ s ∈ S, key x < key s) :
    place key x (P ++ S) = P ++ x :: S := by
  rw [place_append_left P hS, place_of_le hP]
  simp

theorem Sorted.place (h : Sorted key l) (x : α) : Sorted key (place key x l) := by
  obtain ⟨P, S, rfl, hP, hS⟩ := h.exists_split (key x)
  obtain ⟨hsP, hsS, hcross⟩ := List.pairwise_append.mp h
  rw [place_split hP hS]
  refine List.pairwise_append.mpr ⟨hsP, List.pairwise_cons.mpr ⟨fun s hs => (hS s hs).le, hsS⟩, fun p hp s hs => ?_⟩
  rcases List.mem_cons.mp hs with rfl | hs
  · exact hP p hp
  · exact hcross p hp s hs

theorem Sorted.ofKey_place (h : Sorted key l) (x : α) (k : κ) :
    ofKey key k (StableSort.place key x l) = ofKey key k (l ++ [x]) := by
  obtain ⟨P, S, rfl, hP, hS⟩ := h.exists_split (key x)
  rw [place_split hP hS]
  by_cases hk : key x = k
  · subst k
    have hnil : ofKey key (key x) S = [] := List.filter_eq_nil_iff.mpr fun s hs => by simpa using (hS s hs).ne'
    have hcons : ofKey key (key x) (x :: S) = [x] := by
      rw [ofKey, List.filter_cons_of_pos (by simp), ← ofKey, hnil]
    rw [ofKey_append, ofKey_append, ofKey_append, hnil, hcons, List.append_nil]
    simp [ofKey]
  · simp [ofKey, hk]

theorem sort_concat (l : List α) (x : α) : sort key (l ++ [x]) = place key x (sort key l) := by
  refine (sort_sorted _).eq_of_ofKey ((sort_sorted l).place x) fun k => ?_
  rw [ofKey_sort, (sort_sorted l).ofKey_place, ofKey_append, ofKey_append, ofKey_sort]

/-! ## Keeping the last elements -/

/-- `B` has the last `n` elements of `L`, and only some of the others, all in their order. -/
def KeepsLast (n : Nat) (B L : List α) : Prop :=
  ∃ D P S, B = D ++ S ∧ L = P ++ S ∧ D.Sublist P ∧ S.length = min n L.length

variable {A B L : List α} {n : Nat}

theorem KeepsLast.sublist (h : KeepsLast n B L) : B.Sublist L := by
  obtain ⟨D, P, S, rfl, rfl, hsub, -⟩ := h
  exact hsub.append (List.Sublist.refl S)

theorem KeepsLast.suffix (h : KeepsLast n B L) : L.drop (L.length - n) <:+ B := by
  obtain ⟨D, P, S, rfl, rfl, -, hlength⟩ := h
  have hdrop : (P ++ S).length - n = P.length := by
    rw [List.length_append] at hlength ⊢
    omega
  rw [hdrop, List.drop_left]
  exact List.suffix_append D S

theorem KeepsLast.drop (h : KeepsLast n B L) : KeepsLast n (B.drop (B.length - n)) L := by
  have hle := h.sublist.length_le
  obtain ⟨D, P, S, rfl, rfl, hsub, hlength⟩ := h
  rw [List.length_append, List.length_append] at hle
  rw [List.length_append] at hlength
  refine ⟨D.drop (D.length + S.length - n), P, S, ?_, rfl, (List.drop_sublist _ D).trans hsub, ?_⟩
  · rw [List.length_append, List.drop_append_of_le_length (by omega)]
  · rw [hlength, List.length_append]

theorem keepsLast_self (h : L.length ≤ n) : KeepsLast n L L :=
  ⟨[], [], L, rfl, rfl, List.Sublist.refl [], (min_eq_right h).symm⟩

theorem keepsLast_append (hsub : A.Sublist P) (hS : S.length = n) : KeepsLast n (A ++ S) (P ++ S) :=
  ⟨A, P, S, rfl, rfl, hsub, by rw [List.length_append]; omega⟩

/-- Nothing has been dropped while there is room. -/
theorem KeepsLast.eq_of_le (h : KeepsLast n B L) (hroom : L.length ≤ n) : B = L := by
  obtain ⟨D, P, S, rfl, rfl, hsub, hlength⟩ := h
  rw [List.length_append] at hlength hroom
  obtain rfl : P = [] := List.length_eq_zero_iff.mp (by omega)
  rw [List.sublist_nil.mp hsub]

theorem KeepsLast.exists_append (h : KeepsLast n B L) (hfull : n ≤ L.length) :
    ∃ D P S, B = D ++ S ∧ L = P ++ S ∧ D.Sublist P ∧ S.length = n := by
  obtain ⟨D, P, S, hB, hL, hsub, hlength⟩ := h
  exact ⟨D, P, S, hB, hL, hsub, by omega⟩

theorem place_sublist (hP : Sorted key P) (h : B.Sublist P) : (place key x B).Sublist (place key x P) := by
  obtain ⟨Q, R, rfl, hQ, hR⟩ := hP.exists_split (key x)
  obtain ⟨D, E, rfl, hD, hE⟩ := List.sublist_append_iff.mp h
  rw [place_split hQ hR, place_split (fun p hp => hQ p (hD.subset hp)) fun s hs => hR s (hE.subset hs)]
  exact hD.append (hE.cons_cons x)

/-- What is not larger than the element stays in front of it, and the first of the last elements joins it there. -/
theorem place_append_cons {s : α} (hP : ∀ p ∈ P, key p ≤ key x) (hs : key s ≤ key x) :
    place key x (P ++ s :: S) = (P ++ [s]) ++ place key x S := by
  have hall : ∀ p ∈ P ++ [s], key p ≤ key x := by
    simp only [List.forall_mem_append, List.mem_singleton, forall_eq]
    exact ⟨hP, hs⟩
  rw [← place_append_right S hall, List.append_assoc, List.singleton_append]

/-- Placing an element in the list and in what is kept of it. -/
theorem KeepsLast.place (hL : Sorted key L) (h : KeepsLast n B L) (x : α) :
    KeepsLast n (StableSort.place key x B) (StableSort.place key x L) := by
  rcases Nat.lt_or_ge L.length n with hroom | hfull
  · rw [h.eq_of_le hroom.le]
    exact keepsLast_self (by rw [length_place]; exact hroom)
  obtain ⟨D, P, S, rfl, rfl, hsub, hS⟩ := h.exists_append hfull
  obtain ⟨hP, hsortedS, hcross⟩ := List.pairwise_append.mp hL
  cases S with
  | nil =>
      rw [List.append_nil, List.append_nil]
      simpa using keepsLast_append (place_sublist (x := x) hP hsub) hS
  | cons s S =>
      have hs := (List.pairwise_cons.mp hsortedS).1
      rcases lt_or_ge (key x) (key s) with hlt | hle
      · have hall : ∀ t ∈ s :: S, key x < key t := by
          simp only [List.forall_mem_cons]
          exact ⟨hlt, fun t ht => lt_of_lt_of_le hlt (hs t ht)⟩
        rw [place_append_left D hall, place_append_left P hall]
        exact keepsLast_append (place_sublist hP hsub) hS
      · have hbefore : ∀ p ∈ P, key p ≤ key x := fun p hp => (hcross p hp s List.mem_cons_self).trans hle
        rw [place_append_cons hbefore hle, place_append_cons (fun p hp => hbefore p (hsub.subset hp)) hle]
        exact keepsLast_append (hsub.append (List.Sublist.refl [s])) (by rw [length_place]; exact hS)

end AllInSafe.Library.StableSort
