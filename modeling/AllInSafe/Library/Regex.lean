import AllInSafe.Library.Text
import Mathlib.Data.List.Basic

/-!
# Regular expressions with groups

A matcher that backtracks: its attempts are listed in the order in which it makes them. A group in a repetition keeps
what it has captured last.
-/

namespace AllInSafe.Library.Regex

inductive Pattern
  | one (p : Char → Bool)
  | seq (a b : Pattern)
  /-- Greedy, as often as possible first. -/
  | star (a : Pattern)
  | group (k : Nat) (a : Pattern)

/-- `a+`. -/
def Pattern.plus (a : Pattern) : Pattern := .seq a (.star a)

abbrev Groups := Nat → Option Str

def Groups.set (g : Groups) (k : Nat) (t : Str) : Groups := fun i => if i = k then some t else g i

/-- The groups after an attempt, and the text behind it. -/
abbrev Attempt := Groups × Str

/-- An iteration that takes nothing ends the repetition. -/
def repeats (f : Groups → Str → List Attempt) : Nat → Groups → Str → List Attempt
  | 0, g, s => [(g, s)]
  | n + 1, g, s => ((f g s).filter fun r => r.2.length < s.length).flatMap (fun r => repeats f n r.1 r.2) ++ [(g, s)]

def attempts : Pattern → Groups → Str → List Attempt
  | .one p, g, s =>
      match s with
      | [] => []
      | c :: s => if p c then [(g, s)] else []
  | .seq a b, g, s => (attempts a g s).flatMap fun r => attempts b r.1 r.2
  | .star a, g, s => repeats (attempts a) s.length g s
  | .group k a, g, s => (attempts a g s).map fun r => (r.1.set k (s.take (s.length - r.2.length)), r.2)

/-- The groups of the first attempt that takes all of the text. -/
def firstMatch (a : Pattern) (s : Str) : Option Groups :=
  ((attempts a (fun _ => none) s).find? fun r => r.2 = []).map Prod.fst

/-! ## Which attempts there are -/

variable {a b : Pattern} {p : Char → Bool} {g : Groups} {s : Str} {k n : Nat} {r : Attempt}

@[simp] theorem Groups.set_set (g : Groups) (k : Nat) (t u : Str) : (g.set k t).set k u = g.set k u := by
  funext i
  by_cases h : i = k <;> simp [Groups.set, h]

theorem mem_one : r ∈ attempts (.one p) g s ↔ ∃ c, p c = true ∧ s = c :: r.2 ∧ r.1 = g := by
  obtain ⟨g', t⟩ := r
  cases s with
  | nil => simp [attempts]
  | cons c s =>
      rw [attempts]
      split_ifs with hc
      · constructor
        · intro h
          obtain ⟨rfl, rfl⟩ := Prod.mk.inj (List.mem_singleton.mp h)
          exact ⟨c, hc, rfl, rfl⟩
        · rintro ⟨d, -, hs, rfl⟩
          obtain ⟨rfl, rfl⟩ := List.cons.inj hs
          exact List.mem_singleton_self _
      · simp only [List.not_mem_nil, false_iff, not_exists, not_and]
        intro d hd hs
        exact absurd ((List.cons.inj hs).1 ▸ hd) hc

theorem mem_seq : r ∈ attempts (.seq a b) g s ↔ ∃ r' ∈ attempts a g s, r ∈ attempts b r'.1 r'.2 := by
  simp [attempts]

theorem mem_group : r ∈ attempts (.group k a) g s ↔
    ∃ r' ∈ attempts a g s, r = (r'.1.set k (s.take (s.length - r'.2.length)), r'.2) := by
  simp [attempts, eq_comm]

/-! ## Repetitions -/

/-- Some iterations that each take something lead to the attempt. -/
inductive Iterated (a : Pattern) : Groups → Str → Attempt → Prop
  | done {g : Groups} {s : Str} : Iterated a g s (g, s)
  | next {g : Groups} {s : Str} {r r' : Attempt} (hr' : r' ∈ attempts a g s) (hshorter : r'.2.length < s.length)
      (hr : Iterated a r'.1 r'.2 r) : Iterated a g s r

theorem mem_repeats (hn : s.length ≤ n) : r ∈ repeats (attempts a) n g s ↔ Iterated a g s r := by
  induction n generalizing g s with
  | zero =>
      obtain rfl := List.eq_nil_of_length_eq_zero (Nat.le_zero.mp hn)
      rw [repeats, List.mem_singleton]
      constructor
      · rintro rfl
        exact .done
      · intro h
        cases h with
        | done => rfl
        | next _ hshorter _ => cases hshorter
  | succ n ih =>
      rw [repeats, List.mem_append, List.mem_flatMap, List.mem_singleton]
      constructor
      · rintro (⟨r', hr', hr⟩ | rfl)
        · obtain ⟨hmem, hshorter⟩ := List.mem_filter.mp hr'
          have hshorter : r'.2.length < s.length := by simpa using hshorter
          exact .next hmem hshorter ((ih (by omega)).mp hr)
        · exact .done
      · intro h
        cases h with
        | done => exact .inr rfl
        | next hr' hshorter hr =>
            exact .inl ⟨_, List.mem_filter.mpr ⟨hr', by simpa using hshorter⟩, (ih (by omega)).mpr hr⟩

theorem mem_star : r ∈ attempts (.star a) g s ↔ Iterated a g s r := mem_repeats (Nat.le_refl _)

/-! ## Repetitions of a character -/

/-- The pattern takes one character of a class and changes the groups with it. -/
def TakesOne (a : Pattern) (p : Char → Bool) (f : Groups → Char → Groups) : Prop :=
  ∀ g s r, r ∈ attempts a g s ↔ ∃ c, p c = true ∧ s = c :: r.2 ∧ r.1 = f g c

theorem takesOne_one (p : Char → Bool) : TakesOne (.one p) p fun g _ => g := fun _ _ _ => mem_one

theorem takesOne_group (k : Nat) (p : Char → Bool) : TakesOne (.group k (.one p)) p fun g c => g.set k [c] := by
  intro g s r
  rw [mem_group]
  constructor
  · rintro ⟨r', hr', rfl⟩
    obtain ⟨c, hc, rfl, rfl⟩ := mem_one.mp hr'
    exact ⟨c, hc, rfl, by simp⟩
  · rintro ⟨c, hc, rfl, hg⟩
    refine ⟨(g, r.2), mem_one.mpr ⟨c, hc, rfl, rfl⟩, Prod.ext ?_ rfl⟩
    simp [hg]

variable {f : Groups → Char → Groups}

theorem TakesOne.mem_star (ha : TakesOne a p f) :
    r ∈ attempts (.star a) g s ↔ ∃ w : Str, (∀ c ∈ w, p c = true) ∧ s = w ++ r.2 ∧ r.1 = w.foldl f g := by
  rw [Regex.mem_star]
  constructor
  · intro h
    induction h with
    | done => exact ⟨[], by simp, rfl, rfl⟩
    | next hr' _ _ ih =>
        obtain ⟨c, hc, rfl, hg⟩ := (ha _ _ _).mp hr'
        obtain ⟨w, hw, hs, hr⟩ := ih
        exact ⟨c :: w, by simpa [hc] using hw, by rw [hs]; rfl, by rw [hr, hg]; rfl⟩
  · rintro ⟨w, hw, rfl, hr⟩
    obtain ⟨g', t⟩ := r
    induction w generalizing g with
    | nil =>
        cases hr
        exact .done
    | cons c w ih =>
        rw [List.forall_mem_cons] at hw
        exact .next ((ha g _ (f g c, w ++ t)).mpr ⟨c, hw.1, rfl, rfl⟩) (by simp) (ih hw.2 hr)

theorem TakesOne.mem_plus (ha : TakesOne a p f) : r ∈ attempts (.plus a) g s ↔
    ∃ c, ∃ w : Str, p c = true ∧ (∀ d ∈ w, p d = true) ∧ s = c :: (w ++ r.2) ∧ r.1 = (c :: w).foldl f g := by
  rw [Pattern.plus, mem_seq]
  constructor
  · rintro ⟨r', hr', hr⟩
    obtain ⟨c, hc, rfl, hg⟩ := (ha _ _ _).mp hr'
    obtain ⟨w, hw, hs, hr⟩ := ha.mem_star.mp hr
    exact ⟨c, w, hc, hw, by rw [hs], by rw [hr, hg]; rfl⟩
  · rintro ⟨c, w, hc, hw, rfl, hr⟩
    exact ⟨(f g c, w ++ r.2), (ha _ _ _).mpr ⟨c, hc, rfl, rfl⟩, ha.mem_star.mpr ⟨w, hw, rfl, hr⟩⟩

theorem foldl_const (g : Groups) (w : Str) : w.foldl (fun g _ => g) g = g := by
  induction w with
  | nil => rfl
  | cons c w ih => exact ih

/-- A group around a repeated class keeps the word that it takes. -/
theorem mem_group_star : r ∈ attempts (.group k (.star (.one p))) g s ↔
    ∃ w : Str, (∀ c ∈ w, p c = true) ∧ s = w ++ r.2 ∧ r.1 = g.set k w := by
  rw [mem_group]
  constructor
  · rintro ⟨r', hr', rfl⟩
    obtain ⟨w, hw, rfl, hg⟩ := (takesOne_one p).mem_star.mp hr'
    rw [foldl_const] at hg
    exact ⟨w, hw, rfl, by simp [hg]⟩
  · rintro ⟨w, hw, rfl, hg⟩
    refine ⟨(g, r.2), (takesOne_one p).mem_star.mpr ⟨w, hw, rfl, (foldl_const g w).symm⟩, Prod.ext ?_ rfl⟩
    simp [hg]

theorem mem_group_plus : r ∈ attempts (.group k (.plus (.one p))) g s ↔
    ∃ w : Str, w ≠ [] ∧ (∀ c ∈ w, p c = true) ∧ s = w ++ r.2 ∧ r.1 = g.set k w := by
  rw [mem_group]
  constructor
  · rintro ⟨r', hr', rfl⟩
    obtain ⟨c, w, hc, hw, rfl, hg⟩ := (takesOne_one p).mem_plus.mp hr'
    rw [foldl_const] at hg
    refine ⟨c :: w, by simp, by simpa [hc] using hw, rfl, ?_⟩
    have hlength : (c :: (w ++ r'.2)).length - r'.2.length = (c :: w).length := by simp; omega
    rw [hlength, ← List.cons_append, List.take_left, hg]
  · rintro ⟨w, hne, hw, rfl, hg⟩
    obtain ⟨c, w, rfl⟩ := List.exists_cons_of_ne_nil hne
    rw [List.forall_mem_cons] at hw
    refine ⟨(g, r.2), (takesOne_one p).mem_plus.mpr ⟨c, w, hw.1, hw.2, rfl, (foldl_const g _).symm⟩, Prod.ext ?_ rfl⟩
    have hlength : (c :: w ++ r.2).length - r.2.length = (c :: w).length := by simp; omega
    rw [hg, hlength, List.take_left]

/-- The group keeps the last character. -/
theorem foldl_set (g : Groups) (k : Nat) (w : Str) (c : Char) :
    (w ++ [c]).foldl (fun g c => g.set k [c]) g = g.set k [c] := by
  induction w generalizing g with
  | nil => rfl
  | cons d w ih => rw [List.cons_append, List.foldl_cons, ih, Groups.set_set]

theorem mem_plus_group : r ∈ attempts (.plus (.group k (.one p))) g s ↔
    ∃ (w : Str) (c : Char), (∀ d ∈ w ++ [c], p d = true) ∧ s = w ++ [c] ++ r.2 ∧ r.1 = g.set k [c] := by
  rw [(takesOne_group k p).mem_plus]
  constructor
  · rintro ⟨c, w, hc, hw, rfl, hg⟩
    have hsplit : c :: w = (c :: w).dropLast ++ [(c :: w).getLast (by simp)] := (List.dropLast_append_getLast _).symm
    refine ⟨(c :: w).dropLast, (c :: w).getLast (by simp), ?_, ?_, ?_⟩
    · rw [← hsplit]
      simpa [hc] using hw
    · rw [← hsplit]
      rfl
    · rw [hg]
      conv_lhs => rw [hsplit]
      exact foldl_set g k _ _
  · rintro ⟨w, c, hw, rfl, hg⟩
    obtain ⟨d, v, hv⟩ := List.exists_cons_of_ne_nil (List.append_ne_nil_of_right_ne_nil w (List.cons_ne_nil c []))
    rw [hv] at hw ⊢
    rw [List.forall_mem_cons] at hw
    refine ⟨d, v, hw.1, hw.2, rfl, ?_⟩
    rw [← hv, foldl_set, hg]

/-! ## Matches -/

/-- Where all attempts that take the whole text agree on the groups, the order of the attempts does not count. -/
theorem firstMatch_eq_some (hr : r ∈ attempts a (fun _ => none) s) (hall : r.2 = [])
    (hgroups : ∀ r' ∈ attempts a (fun _ => none) s, r'.2 = [] → r'.1 = g) : firstMatch a s = some g := by
  rw [firstMatch]
  cases hfind : (attempts a (fun _ => none) s).find? fun r => r.2 = [] with
  | none =>
      have hnone := List.find?_eq_none.mp hfind r hr
      simp [hall] at hnone
  | some r' =>
      have hr' : r'.2 = [] := by simpa using List.find?_some hfind
      rw [Option.map_some, hgroups r' (List.mem_of_find?_eq_some hfind) hr']

theorem firstMatch_eq_none (h : ∀ r ∈ attempts a (fun _ => none) s, r.2 ≠ []) : firstMatch a s = none := by
  rw [firstMatch, Option.map_eq_none_iff, List.find?_eq_none]
  simpa using h

end AllInSafe.Library.Regex
