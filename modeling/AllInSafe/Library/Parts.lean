import AllInSafe.Library.Text
import Mathlib

/-!
# The parts of a string between separators
-/

namespace AllInSafe.Library.Str

variable {sep : Char → Bool}

/-! ## parts -/

theorem parts_ne_nil (sep : Char → Bool) (s : Str) : parts sep s ≠ [] := by
  cases s with
  | nil => simp [parts]
  | cons c cs =>
      rw [parts]
      split
      · simp
      · split <;> simp

theorem parts_cons_sep {c : Char} {s : Str} (h : sep c) : parts sep (c :: s) = [] :: parts sep s := by
  rw [parts, if_pos h]

theorem parts_cons {c : Char} {s p : Str} {ps : List Str} (h : ¬ sep c) (hp : parts sep s = p :: ps) :
    parts sep (c :: s) = (c :: p) :: ps := by
  rw [parts, if_neg h, hp]

/-- The last part of the first text goes on in the second one. -/
theorem parts_append {s t p : Str} {ps : List Str} (h : parts sep s = ps ++ [p]) :
    parts sep (s ++ t) = ps ++ parts sep (p ++ t) := by
  induction s generalizing p ps with
  | nil =>
      cases ps with
      | nil => cases h; rfl
      | cons q qs => simp [parts] at h
  | cons c s ih =>
      by_cases hc : sep c
      · rw [parts_cons_sep hc] at h
        cases ps with
        | nil => exact absurd (List.cons.inj h).2 (parts_ne_nil sep s)
        | cons q qs =>
            obtain ⟨rfl, hs⟩ := List.cons.inj h
            rw [List.cons_append, parts_cons_sep hc, ih hs, List.cons_append]
      · obtain ⟨q, qs, hq⟩ := List.exists_cons_of_ne_nil (parts_ne_nil sep s)
        rw [parts_cons hc hq] at h
        cases ps with
        | nil =>
            obtain ⟨rfl, rfl⟩ := List.cons.inj h
            have hq' := ih (List.nil_append [q] ▸ hq)
            obtain ⟨r, rs, hr⟩ := List.exists_cons_of_ne_nil (parts_ne_nil sep (q ++ t))
            rw [List.nil_append, hr] at hq'
            rw [List.cons_append, parts_cons hc hq', List.nil_append, List.cons_append, parts_cons hc hr]
        | cons q' qs' =>
            obtain ⟨rfl, rfl⟩ := List.cons.inj h
            have hs : parts sep s = (q :: qs') ++ [p] := hq
            rw [List.cons_append, parts_cons hc (ih hs)]
            rfl

/-- A separator ends the parts in front of it. -/
theorem parts_append_sep {c : Char} (h : sep c) (s t : Str) : parts sep (s ++ c :: t) = parts sep s ++ parts sep t := by
  induction s with
  | nil => rw [List.nil_append, parts_cons_sep h]; rfl
  | cons d s ih =>
      by_cases hd : sep d
      · rw [List.cons_append, parts_cons_sep hd, parts_cons_sep hd, ih, List.cons_append]
      · obtain ⟨p, ps, hp⟩ := List.exists_cons_of_ne_nil (parts_ne_nil sep s)
        rw [hp, List.cons_append] at ih
        rw [List.cons_append, parts_cons hd ih, parts_cons hd hp, List.cons_append]

theorem parts_of_forall {s : Str} (h : ∀ c ∈ s, sep c = false) : parts sep s = [s] := by
  induction s with
  | nil => rfl
  | cons c s ih =>
      rw [List.forall_mem_cons] at h
      exact parts_cons (by simp [h.1]) (ih h.2)

theorem length_parts (s : Str) : (parts sep s).length = s.countP sep + 1 := by
  induction s with
  | nil => rfl
  | cons c s ih =>
      by_cases hc : sep c
      · simp [parts_cons_sep hc, ih, hc]
      · obtain ⟨p, ps, hp⟩ := List.exists_cons_of_ne_nil (parts_ne_nil sep s)
        rw [hp] at ih
        simpa [parts_cons hc hp, List.countP_cons, hc] using ih

/-- The parts have the characters of the text but no separator. -/
theorem mem_parts {s w : Str} {c : Char} (hw : w ∈ parts sep s) (hc : c ∈ w) : c ∈ s ∧ sep c = false := by
  induction s generalizing w with
  | nil =>
      rw [List.mem_singleton.mp hw] at hc
      cases hc
  | cons d s ih =>
      by_cases hd : sep d
      · rw [parts_cons_sep hd] at hw
        rcases List.mem_cons.mp hw with rfl | hw
        · cases hc
        · exact (ih hw hc).imp_left (List.mem_cons_of_mem d)
      · obtain ⟨p, ps, hp⟩ := List.exists_cons_of_ne_nil (parts_ne_nil sep s)
        rw [parts_cons hd hp] at hw
        rw [hp] at ih
        rcases List.mem_cons.mp hw with rfl | hw
        · rcases List.mem_cons.mp hc with rfl | hc
          · simpa using hd
          · exact (ih List.mem_cons_self hc).imp_left (List.mem_cons_of_mem d)
        · exact (ih (List.mem_cons_of_mem p hw) hc).imp_left (List.mem_cons_of_mem d)

/-! ## split -/

theorem mem_split {s w : Str} {c : Char} (hw : w ∈ split sep s) (hc : c ∈ w) : c ∈ s ∧ sep c = false := by
  rw [split] at hw
  split at hw
  · refine mem_parts (List.mem_reverse.mp ?_) hc
    exact (List.dropWhile_sublist _).subset (List.mem_reverse.mp hw)
  · rename_i hany
    rw [List.mem_singleton.mp hw] at hc
    exact ⟨hc, by simpa using fun hsep => hany (List.any_eq_true.mpr ⟨c, hc, hsep⟩)⟩

theorem split_of_forall {s : Str} (h : ∀ c ∈ s, sep c = false) : split sep s = [s] := by
  have hany : s.any sep = false := by simpa using h
  simp [split, hany]

/-- A last part that is not empty keeps all parts in front of it. -/
theorem split_append_sep {c : Char} (hc : sep c) {s t : Str} (ht : t ≠ []) (h : ∀ d ∈ t, sep d = false) :
    split sep (s ++ c :: t) = parts sep s ++ [t] := by
  have hany : (s ++ c :: t).any sep = true := by simp [hc]
  simp [split, hany, parts_append_sep hc, parts_of_forall h, ht]

/-! ## Words put together -/

theorem intercalate_cons_cons (c : Char) (word word' : Str) (words : List Str) :
    List.intercalate [c] (word :: word' :: words) = word ++ c :: List.intercalate [c] (word' :: words) := by
  simp [List.intercalate]

theorem intercalate_concat (c : Char) (word last : Str) (words : List Str) :
    List.intercalate [c] (word :: words ++ [last]) = List.intercalate [c] (word :: words) ++ c :: last := by
  induction words generalizing word with
  | nil => simp [List.intercalate]
  | cons word' words ih =>
      have hih := ih word'
      rw [List.cons_append] at hih
      rw [List.cons_append, List.cons_append, intercalate_cons_cons, hih, intercalate_cons_cons, List.append_assoc]
      rfl

theorem mem_intercalate {c x : Char} {words : List Str} (h : x ∈ List.intercalate [c] words) :
    x = c ∨ ∃ word ∈ words, x ∈ word := by
  induction words with
  | nil => simp [List.intercalate] at h
  | cons word words ih =>
      cases words with
      | nil => exact .inr ⟨word, List.mem_cons_self, by simpa [List.intercalate] using h⟩
      | cons word' words =>
          rw [intercalate_cons_cons, List.mem_append, List.mem_cons] at h
          rcases h with h | h | h
          · exact .inr ⟨word, List.mem_cons_self, h⟩
          · exact .inl h
          · rcases ih h with h | ⟨u, hu, hx⟩
            · exact .inl h
            · exact .inr ⟨u, List.mem_cons_of_mem _ hu, hx⟩

theorem length_intercalate (c : Char) (words : List Str) :
    (List.intercalate [c] words).length = (words.map List.length).sum + (words.length - 1) := by
  induction words with
  | nil => rfl
  | cons word words ih =>
      cases words with
      | nil => simp [List.intercalate]
      | cons word' words =>
          rw [intercalate_cons_cons, List.length_append, List.length_cons, ih]
          simp only [List.map_cons, List.sum_cons, List.length_cons]
          omega

theorem parts_intercalate {c : Char} (hc : sep c) {word : Str} {words : List Str}
    (h : ∀ w ∈ word :: words, ∀ d ∈ w, sep d = false) :
    parts sep (List.intercalate [c] (word :: words)) = word :: words := by
  induction words generalizing word with
  | nil =>
      rw [List.forall_mem_singleton] at h
      simpa [List.intercalate] using parts_of_forall h
  | cons word' words ih =>
      rw [List.forall_mem_cons] at h
      rw [intercalate_cons_cons, parts_append_sep hc, parts_of_forall h.1, ih h.2]
      rfl

/-- Words that are put together with separators are split again. -/
theorem split_intercalate {c : Char} (hc : sep c) {words : List Str} (hne : words ≠ [])
    (h : ∀ w ∈ words, w ≠ [] ∧ ∀ d ∈ w, sep d = false) : split sep (List.intercalate [c] words) = words := by
  obtain ⟨word, rest, rfl⟩ := List.exists_cons_of_ne_nil hne
  rcases List.eq_nil_or_concat rest with rfl | ⟨middle, last, rfl⟩
  · have hword := (h word List.mem_cons_self).2
    simpa [List.intercalate] using split_of_forall hword
  · have hlast := h last (by simp)
    have hparts : ∀ w ∈ word :: middle, ∀ d ∈ w, sep d = false := by
      intro w hw
      refine (h w ?_).2
      rcases List.mem_cons.mp hw with rfl | hw
      · exact List.mem_cons_self
      · simp [hw]
    rw [List.concat_eq_append, ← List.cons_append, intercalate_concat, split_append_sep hc hlast.1 hlast.2,
      parts_intercalate hc hparts]

/-! ## Texts that are put together and taken apart -/

/-- The parts of words that are put together are the parts of the words. -/
theorem parts_intercalate_flatMap {c : Char} (hc : sep c) {words : List Str} (hne : words ≠ []) :
    parts sep (List.intercalate [c] words) = words.flatMap (parts sep) := by
  obtain ⟨word, words, rfl⟩ := List.exists_cons_of_ne_nil hne
  induction words generalizing word with
  | nil => simp [List.intercalate]
  | cons word' words ih =>
      rw [intercalate_cons_cons, parts_append_sep hc, ih word' (by simp)]
      rfl

theorem intercalate_parts (c : Char) (s : Str) : List.intercalate [c] (parts (· = c) s) = s := by
  induction s with
  | nil => rfl
  | cons d s ih =>
      obtain ⟨p, ps, hp⟩ := List.exists_cons_of_ne_nil (parts_ne_nil (· = c) s)
      rw [hp] at ih
      by_cases hd : d = c
      · subst hd
        rw [parts_cons_sep (by simp), hp, intercalate_cons_cons, ih]
        rfl
      · rw [parts_cons (by simpa using hd) hp]
        cases ps with
        | nil => simpa [List.intercalate] using ih
        | cons q qs =>
            rw [intercalate_cons_cons] at ih
            rw [intercalate_cons_cons, List.cons_append, ih]

/-- Words without a separator are told apart by what is put together of them, unless it is nothing. -/
theorem intercalate_inj {c : Char} {words words' : List Str} (hwords : ∀ w ∈ words, w ≠ [] ∧ c ∉ w)
    (hwords' : ∀ w ∈ words', w ≠ [] ∧ c ∉ w) (h : List.intercalate [c] words = List.intercalate [c] words') :
    words = words' := by
  have hparts : ∀ {words : List Str}, (∀ w ∈ words, w ≠ [] ∧ c ∉ w) →
      (parts (· = c) (List.intercalate [c] words)).filter (· ≠ []) = words := by
    intro words hwords
    cases words with
    | nil => rfl
    | cons word words =>
        have hsep : ∀ w ∈ word :: words, ∀ d ∈ w, decide (d = c) = false := by
          rintro w hw d hd
          exact decide_eq_false fun hdc => (hwords w hw).2 (hdc ▸ hd)
        rw [parts_intercalate (by simp) hsep, List.filter_eq_self]
        exact fun w hw => decide_eq_true (hwords w hw).1
  rw [← hparts hwords, h, hparts hwords']

/-- A character that is in neither of the texts in front of it ends both. -/
theorem append_cons_inj {c : Char} {s s' t t' : Str} (hs : c ∉ s) (hs' : c ∉ s') (h : s ++ c :: t = s' ++ c :: t') :
    s = s' ∧ t = t' := by
  induction s generalizing s' with
  | nil =>
      cases s' with
      | nil => exact ⟨rfl, (List.cons.inj h).2⟩
      | cons d s' => exact absurd ((List.cons.inj h).1 ▸ List.mem_cons_self) hs'
  | cons d s ih =>
      cases s' with
      | nil => exact absurd ((List.cons.inj h).1 ▸ List.mem_cons_self) hs
      | cons d' s' =>
          obtain ⟨rfl, htail⟩ := List.cons.inj h
          rw [List.mem_cons, not_or] at hs hs'
          obtain ⟨rfl, rfl⟩ := ih hs.2 hs'.2 htail
          exact ⟨rfl, rfl⟩

/-- The first characters outside a class end both words of the class. -/
theorem append_cons_inj_class {p : Char → Bool} {c c' : Char} {s s' t t' : Str} (hs : ∀ d ∈ s, p d = true)
    (hs' : ∀ d ∈ s', p d = true) (hc : p c = false) (hc' : p c' = false) (h : s ++ c :: t = s' ++ c' :: t') :
    s = s' ∧ c = c' ∧ t = t' := by
  have htake := congrArg (List.takeWhile p) h
  have hdrop := congrArg (List.dropWhile p) h
  rw [List.takeWhile_append_of_pos hs, List.takeWhile_append_of_pos hs', List.takeWhile_cons_of_neg (by simp [hc]),
    List.takeWhile_cons_of_neg (by simp [hc']), List.append_nil, List.append_nil] at htake
  rw [List.dropWhile_append_of_pos hs, List.dropWhile_append_of_pos hs', List.dropWhile_cons_of_neg (by simp [hc]),
    List.dropWhile_cons_of_neg (by simp [hc'])] at hdrop
  exact ⟨htake, (List.cons.inj hdrop).1, (List.cons.inj hdrop).2⟩

/-- A character that is in neither of the texts behind it begins both. -/
theorem append_cons_inj_last {c : Char} {s s' t t' : Str} (ht : c ∉ t) (ht' : c ∉ t')
    (h : s ++ c :: t = s' ++ c :: t') : s = s' ∧ t = t' := by
  have hreverse : t.reverse ++ c :: s.reverse = t'.reverse ++ c :: s'.reverse := by
    simpa using congrArg List.reverse h
  obtain ⟨htt, hss⟩ := append_cons_inj (by simpa using ht) (by simpa using ht') hreverse
  exact ⟨List.reverse_inj.mp hss, List.reverse_inj.mp htt⟩

end AllInSafe.Library.Str
