import Mathlib

/-!
# Longest match in a list of entries

An entry covers points, has a length and a value. A point has the value of the longest entry that covers it.
-/

namespace AllInSafe.Library

/-- What the entries of a list cover, how long they are and what they stand for. -/
structure Entries (α ξ υ : Type) where
  Covers : α → ξ → Prop
  length : α → Nat
  value : α → υ

namespace Entries

variable {α ξ υ : Type} (E : Entries α ξ υ)

structure Best (l : List α) (x : ξ) (n : α) : Prop where
  mem : n ∈ l
  covers : E.Covers n x
  longest : ∀ m ∈ l, E.Covers m x → E.length m ≤ E.length n

/-- The longest entry that covers the point has the value. -/
def Resolves (l : List α) (x : ξ) (v : υ) : Prop :=
  ∃ n, E.Best l x n ∧ E.value n = v

instance [DecidableEq α] [∀ n x, Decidable (E.Covers n x)] (l : List α) (x : ξ) (n : α) : Decidable (E.Best l x n) :=
  decidable_of_iff (n ∈ l ∧ E.Covers n x ∧ ∀ m ∈ l, E.Covers m x → E.length m ≤ E.length n)
    ⟨fun ⟨hmem, hcovers, hlongest⟩ => ⟨hmem, hcovers, hlongest⟩, fun h => ⟨h.mem, h.covers, h.longest⟩⟩

instance [DecidableEq α] [DecidableEq υ] [∀ n x, Decidable (E.Covers n x)] (l : List α) (x : ξ) (v : υ) :
    Decidable (E.Resolves l x v) :=
  decidable_of_iff (∃ n ∈ l, E.Best l x n ∧ E.value n = v)
    ⟨fun ⟨n, _, hn⟩ => ⟨n, hn⟩, fun ⟨n, hn⟩ => ⟨n, hn.1.mem, hn⟩⟩

/-- Entries of one length that share a point agree. -/
def Consistent (l : List α) : Prop :=
  ∀ m ∈ l, ∀ n ∈ l, ∀ x, E.Covers m x → E.Covers n x → E.length m = E.length n → E.value m = E.value n

variable {E} {l l' : List α} {x : ξ} {n : α} {v w : υ}

theorem Best.exists (hn : n ∈ l) (hx : E.Covers n x) : ∃ m, E.Best l x m := by
  induction l generalizing n with
  | nil => cases hn
  | cons a l ih =>
      have hcons : ∀ k, E.Best l x k → ∃ m, E.Best (a :: l) x m := by
        intro k hk
        by_cases ha : E.Covers a x ∧ E.length k ≤ E.length a
        · exact ⟨a, List.mem_cons_self, ha.1, List.forall_mem_cons.mpr
            ⟨fun _ => le_rfl, fun m hm hmx => (hk.longest m hm hmx).trans ha.2⟩⟩
        · exact ⟨k, List.mem_cons_of_mem a hk.mem, hk.covers, List.forall_mem_cons.mpr
            ⟨fun hax => le_of_not_ge fun hle => ha ⟨hax, hle⟩, hk.longest⟩⟩
      by_cases hl : ∃ k ∈ l, E.Covers k x
      · obtain ⟨k, hk, hkx⟩ := hl
        obtain ⟨m, hm⟩ := ih hk hkx
        exact hcons m hm
      · have ha : n = a := (List.mem_cons.mp hn).resolve_right fun hm => hl ⟨n, hm, hx⟩
        exact ⟨a, List.mem_cons_self, ha ▸ hx, List.forall_mem_cons.mpr
          ⟨fun _ => le_rfl, fun m hm hmx => absurd ⟨m, hm, hmx⟩ hl⟩⟩

theorem Best.mono (h : E.Best l x n) (hn : n ∈ l') (hsub : ∀ m ∈ l', E.Covers m x → m ∈ l) : E.Best l' x n :=
  ⟨hn, h.covers, fun m hm hx => h.longest m (hsub m hm hx) hx⟩

theorem Resolves.unique (hl : E.Consistent l) (hv : E.Resolves l x v) (hw : E.Resolves l x w) : v = w := by
  obtain ⟨m, hm, rfl⟩ := hv
  obtain ⟨n, hn, rfl⟩ := hw
  exact hl m hm.mem n hn.mem x hm.covers hn.covers
    (le_antisymm (hn.longest m hm.mem hm.covers) (hm.longest n hn.mem hn.covers))

/-- Only the entries that cover the point matter. -/
theorem Resolves.congr (h : ∀ m, E.Covers m x → (m ∈ l ↔ m ∈ l')) : E.Resolves l x v ↔ E.Resolves l' x v := by
  constructor
  · rintro ⟨n, hn, hv⟩
    exact ⟨n, hn.mono ((h n hn.covers).mp hn.mem) fun m hm hx => (h m hx).mpr hm, hv⟩
  · rintro ⟨n, hn, hv⟩
    exact ⟨n, hn.mono ((h n hn.covers).mpr hn.mem) fun m hm hx => (h m hx).mp hm, hv⟩

theorem Best.value_eq (hl : E.Consistent l) {m : α} (hm : E.Best l x m) (hn : n ∈ l) (hx : E.Covers n x)
    (hle : E.length m ≤ E.length n) : E.value n = E.value m :=
  hl n hn m hm.mem x hx hm.covers (le_antisymm (hm.longest n hn hx) hle)

theorem resolves_append (h : ∀ m ∈ l, ∀ n ∈ l', E.Covers m x → ¬ E.Covers n x) :
    E.Resolves (l ++ l') x v ↔ E.Resolves l x v ∨ E.Resolves l' x v := by
  constructor
  · rintro ⟨n, hn, hv⟩
    rcases List.mem_append.mp hn.mem with hl | hl'
    · exact .inl ⟨n, hn.mono hl fun m hm _ => List.mem_append_left l' hm, hv⟩
    · exact .inr ⟨n, hn.mono hl' fun m hm _ => List.mem_append_right l hm, hv⟩
  · rintro (⟨n, hn, hv⟩ | ⟨n, hn, hv⟩)
    · refine ⟨n, hn.mono (List.mem_append_left l' hn.mem) fun m hm hx => ?_, hv⟩
      exact (List.mem_append.mp hm).resolve_right fun hm' => h n hn.mem m hm' hn.covers hx
    · refine ⟨n, hn.mono (List.mem_append_right l hn.mem) fun m hm hx => ?_, hv⟩
      exact (List.mem_append.mp hm).resolve_left fun hm' => h m hm' n hn.mem hx hn.covers

/-- A list that resolves what another one resolves, and covers no more, resolves the same. -/
theorem resolves_iff_of_forward (hl' : E.Consistent l')
    (hforward : ∀ n, E.Best l x n → E.Resolves l' x (E.value n))
    (hcovered : ∀ n ∈ l', E.Covers n x → ∃ m ∈ l, E.Covers m x) : E.Resolves l' x v ↔ E.Resolves l x v := by
  constructor
  · intro h
    obtain ⟨n, hn, -⟩ := id h
    obtain ⟨m, hm, hmx⟩ := hcovered n hn.mem hn.covers
    obtain ⟨k, hk⟩ := Best.exists hm hmx
    exact ⟨k, hk, (hforward k hk).unique hl' h⟩
  · rintro ⟨n, hn, rfl⟩
    exact hforward n hn

end Entries

end AllInSafe.Library
