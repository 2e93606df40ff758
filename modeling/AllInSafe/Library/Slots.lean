import Mathlib

/-!
# Slots

A list of slots, some of them in use. The keys of those in use are distinct and lie in a window.
-/

namespace AllInSafe.Library.Slots

variable {α : Type} {used : α → Bool} {slots : List α} {i : Nat} {a b : α}

theorem free_of_findIdx? (h : slots.findIdx? (fun a => !used a) = some i) :
    ∃ b, slots[i]? = some b ∧ used b = false := by
  obtain ⟨hi, hfree, -⟩ := List.findIdx?_eq_some_iff_getElem.mp h
  exact ⟨slots[i], List.getElem?_eq_getElem hi, by simpa using hfree⟩

theorem findIdx?_isSome (h : (slots.filter used).length < slots.length) :
    (slots.findIdx? fun a => !used a).isSome = true := by
  rw [List.findIdx?_isSome, List.any_eq_true]
  by_contra hnone
  have hall : slots.filter used = slots := by
    rw [List.filter_eq_self]
    intro a ha
    by_contra hfree
    exact hnone ⟨a, ha, by simpa using hfree⟩
  rw [hall] at h
  exact lt_irrefl _ h

theorem any_free (h : (slots.filter used).length < slots.length) : (slots.any fun a => !used a) = true := by
  rw [← List.findIdx?_isSome]
  exact findIdx?_isSome h

/-- A free slot is taken. -/
theorem filter_set_take (hb : slots[i]? = some b) (hfree : used b = false) (ha : used a = true) :
    ((slots.set i a).filter used).Perm (a :: slots.filter used) := by
  induction slots generalizing i with
  | nil => cases hb
  | cons c slots ih =>
      cases i with
      | zero =>
          cases hb
          simp [ha, hfree]
      | succ i =>
          have hrest := @ih i (by simpa using hb)
          rw [List.set_cons_succ, List.filter_cons, List.filter_cons]
          split_ifs
          · exact (hrest.cons c).trans (.swap _ _ _)
          · exact hrest

/-- A slot in use is released. -/
theorem filter_set_release (hb : slots[i]? = some b) (hused : used b = true) (ha : used a = false) :
    (slots.filter used).Perm (b :: (slots.set i a).filter used) := by
  induction slots generalizing i with
  | nil => cases hb
  | cons c slots ih =>
      cases i with
      | zero =>
          cases hb
          simp [ha, hused]
      | succ i =>
          have hrest := @ih i (by simpa using hb)
          rw [List.set_cons_succ, List.filter_cons, List.filter_cons]
          split_ifs
          · exact (hrest.cons c).trans (.swap _ _ _)
          · exact hrest

/-- A slot changes in what does not matter. -/
theorem map_filter_set {β : Type} {f : α → β} (hb : slots[i]? = some b) (hused : used a = used b) (hf : f a = f b) :
    ((slots.set i a).filter used).map f = (slots.filter used).map f := by
  induction slots generalizing i with
  | nil => cases hb
  | cons c slots ih =>
      cases i with
      | zero =>
          cases hb
          rw [List.set_cons_zero, List.filter_cons, List.filter_cons, hused]
          split_ifs <;> simp [hf]
      | succ i =>
          have hrest := @ih i (by simpa using hb)
          rw [List.set_cons_succ, List.filter_cons, List.filter_cons]
          split_ifs <;> simp [hrest]

/-- No more slots are in use than the window has keys. -/
theorem length_le_window {l : List α} {key : α → Nat} (low high : Nat) (hnodup : (l.map key).Nodup)
    (hwindow : ∀ a ∈ l, low ≤ key a ∧ key a < high) : l.length ≤ high - low := by
  have hsubset : (l.map key).toFinset ⊆ Finset.Ico low high := by
    intro n hn
    obtain ⟨a, ha, rfl⟩ := List.mem_map.mp (List.mem_toFinset.mp hn)
    exact Finset.mem_Ico.mpr (hwindow a ha)
  have hcard := Finset.card_le_card hsubset
  rwa [List.toFinset_card_of_nodup hnodup, List.length_map, Nat.card_Ico] at hcard

end AllInSafe.Library.Slots

/-!
# The least element of a list that meets a condition
-/

namespace AllInSafe.Library.Least

variable {α : Type} {p : α → Bool} {lt : α → α → Bool} {key : α → Nat} {l : List α} {a : α} {best : Option α}

/-- A loop that keeps the best element it has seen. -/
def scan (p : α → Bool) (lt : α → α → Bool) (l : List α) : Option α :=
  l.foldl (fun best a => if p a && best.all fun b => lt a b then some a else best) none

theorem mem_scan (h : scan p lt l = some a) : a ∈ l ∧ p a = true := by
  have hfold : ∀ (rest : List α) (best : Option α), (∀ b ∈ best, b ∈ l ∧ p b = true) → (∀ b ∈ rest, b ∈ l) →
      ∀ b ∈ rest.foldl (fun best a => if p a && best.all fun b => lt a b then some a else best) best,
        b ∈ l ∧ p b = true := by
    intro rest
    induction rest with
    | nil => exact fun best hbest _ => hbest
    | cons c rest ih =>
        intro best hbest hrest
        rw [List.forall_mem_cons] at hrest
        refine ih _ (fun b hb => ?_) hrest.2
        simp only at hb
        split_ifs at hb with hbetter
        · cases hb
          exact ⟨hrest.1, (Bool.and_eq_true_iff.mp hbetter).1⟩
        · exact hbest b hb
  exact hfold l none (by simp) (fun _ hb => hb) a h

/-- What the loop knows after the elements `seen`. -/
def Best (p : α → Bool) (key : α → Nat) (seen : List α) : Option α → Prop
  | none => ∀ b ∈ seen, p b = false
  | some a => a ∈ seen ∧ p a = true ∧ ∀ b ∈ seen, p b = true → key a ≤ key b

theorem Best.next {seen : List α} (hlt : ∀ a ∈ l, ∀ b ∈ l, p a = true → p b = true → lt a b = decide (key a < key b))
    (hseen : ∀ b ∈ seen, b ∈ l) (ha : a ∈ l) (h : Best p key seen best) :
    Best p key (seen ++ [a]) (if p a && best.all fun b => lt a b then some a else best) := by
  cases best with
  | none =>
      cases hp : p a with
      | false =>
          rw [Bool.false_and, if_neg Bool.false_ne_true]
          intro b hb
          rcases List.mem_append.mp hb with hb | hb
          · exact h b hb
          · exact List.mem_singleton.mp hb ▸ hp
      | true =>
          refine ⟨by simp, hp, fun b hb hpb => ?_⟩
          rcases List.mem_append.mp hb with hb | hb
          · simp [h b hb] at hpb
          · exact (congrArg key (List.mem_singleton.mp hb)).ge
  | some c =>
      obtain ⟨hc, hpc, hleast⟩ := h
      by_cases hbetter : (p a && lt a c) = true
      · obtain ⟨hp, hless⟩ := Bool.and_eq_true_iff.mp hbetter
        rw [hlt a ha c (hseen c hc) hp hpc, decide_eq_true_eq] at hless
        simp only [Option.all_some, hbetter, if_true]
        refine ⟨by simp, hp, fun b hb hpb => ?_⟩
        rcases List.mem_append.mp hb with hb | hb
        · exact hless.le.trans (hleast b hb hpb)
        · exact (congrArg key (List.mem_singleton.mp hb)).ge
      · simp only [Option.all_some, hbetter]
        refine ⟨by simp [hc], hpc, fun b hb hpb => ?_⟩
        rcases List.mem_append.mp hb with hb | hb
        · exact hleast b hb hpb
        · rw [List.mem_singleton.mp hb] at hpb ⊢
          rw [hpb, Bool.true_and, hlt a ha c (hseen c hc) hpb hpc, decide_eq_true_eq] at hbetter
          exact not_lt.mp hbetter

/-- Where the comparison agrees with the keys, the loop finds the element with the least one. -/
theorem best_scan (hlt : ∀ a ∈ l, ∀ b ∈ l, p a = true → p b = true → lt a b = decide (key a < key b)) :
    Best p key l (scan p lt l) := by
  have hfold : ∀ (rest seen : List α) (best : Option α), seen ++ rest = l → Best p key seen best →
      Best p key l (rest.foldl (fun best a => if p a && best.all fun b => lt a b then some a else best) best) := by
    intro rest
    induction rest with
    | nil =>
        intro seen best hl hbest
        rw [List.append_nil] at hl
        exact hl ▸ hbest
    | cons a rest ih =>
        intro seen best hl hbest
        refine ih (seen ++ [a]) _ (by simpa using hl) (hbest.next hlt ?_ ?_)
        · exact fun b hb => hl ▸ List.mem_append_left _ hb
        · exact hl ▸ List.mem_append_right _ List.mem_cons_self
  exact hfold l [] none rfl (by simp [Best])

end AllInSafe.Library.Least

/-!
# What is lent, and to whom
-/

namespace AllInSafe.Library.Lease

variable {ι κ : Type}

/-- Exactly what is taken is held, each thing by one holder. -/
structure Exact (handle : ι → Option κ) (taken : κ → Prop) : Prop where
  taken_iff : ∀ i, taken i ↔ ∃ c, handle c = some i
  once : ∀ c d i, handle c = some i → handle d = some i → c = d

theorem Exact.congr {handle : ι → Option κ} {taken taken' : κ → Prop} (h : Exact handle taken)
    (htaken : ∀ i, taken' i ↔ taken i) : Exact handle taken' :=
  ⟨fun i => (htaken i).trans (h.taken_iff i), h.once⟩

section
variable [DecidableEq ι] {handle : ι → Option κ} {taken : κ → Prop} {c : ι} {i : κ}

theorem Exact.drop (h : Exact handle taken) (c : ι) :
    Exact (Function.update handle c none) fun i => taken i ∧ handle c ≠ some i := by
  have hother : ∀ d i, Function.update handle c none d = some i ↔ d ≠ c ∧ handle d = some i := by
    intro d i
    by_cases hd : d = c
    · simp [hd]
    · simp [hd]
  refine ⟨fun i => ?_, fun d e i hd he => ?_⟩
  · simp only [hother, h.taken_iff]
    constructor
    · rintro ⟨⟨d, hd⟩, hc⟩
      exact ⟨d, fun hdc => hc (hdc ▸ hd), hd⟩
    · rintro ⟨d, hdc, hd⟩
      exact ⟨⟨d, hd⟩, fun hc => hdc (h.once d c i hd hc)⟩
  · exact h.once d e i ((hother d i).mp hd).2 ((hother e i).mp he).2

theorem Exact.give (h : Exact handle taken) (hc : handle c = none) (hi : ¬ taken i) :
    Exact (Function.update handle c (some i)) fun j => taken j ∨ j = i := by
  have hnobody : ∀ d, handle d ≠ some i := fun d hd => hi ((h.taken_iff i).mpr ⟨d, hd⟩)
  have hgiven : ∀ d j, Function.update handle c (some i) d = some j ↔ (d = c ∧ j = i) ∨ handle d = some j := by
    intro d j
    by_cases hd : d = c
    · simp [hd, hc, eq_comm]
    · simp [hd]
  refine ⟨fun j => ?_, fun d e j hd he => ?_⟩
  · simp only [hgiven, h.taken_iff]
    constructor
    · rintro (⟨d, hd⟩ | rfl)
      · exact ⟨d, .inr hd⟩
      · exact ⟨c, .inl ⟨rfl, rfl⟩⟩
    · rintro ⟨d, ⟨-, hj⟩ | hd⟩
      · exact .inr hj
      · exact .inl ⟨d, hd⟩
  · rcases (hgiven d j).mp hd with ⟨hdc, hj⟩ | hdj <;> rcases (hgiven e j).mp he with ⟨hec, hj'⟩ | hej
    · exact hdc.trans hec.symm
    · exact absurd (hj ▸ hej) (hnobody e)
    · exact absurd (hj' ▸ hdj) (hnobody d)
    · exact h.once d e j hdj hej

end

end AllInSafe.Library.Lease
