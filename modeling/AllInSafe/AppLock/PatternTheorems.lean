import AllInSafe.AppLock.Lemmas.Patterns

/-!
# The stored pattern is the drawn pattern
-/

namespace AllInSafe.AppLock
open AllInSafe.Library

/-! ## The record of a pattern -/

/-- The record of the pattern unlocks for this pattern and for no other. -/
def StoredAsDrawn (pattern : List Nat) : Prop :=
  ∀ document : Document, ∃ stored, document.setPattern pattern = some stored ∧
    ∀ inputPattern, verifyPattern inputPattern stored = some (decide (inputPattern = pattern))

/-- One round of `forEachIndexed`. -/
def setOrder (patternData : List Int) (e : Nat × Nat) : Option (List Int) :=
  if e.1 + 1 < patternData.length then some (patternData.set (e.1 + 1) (Config.wrap 32 (e.2 + 1))) else none

theorem setOrders_spec {l : List (Nat × Nat)} {data : List Int} (h : ∀ e ∈ l, e.1 + 1 < data.length) :
    ∃ data', l.foldlM setOrder data = some data' ∧ data'.length = data.length ∧
      (∀ j, (∀ e ∈ l, e.1 + 1 ≠ j) → data'[j]? = data[j]?) ∧
      ((l.map Prod.fst).Nodup → ∀ e ∈ l, data'[e.1 + 1]? = some (Config.wrap 32 (e.2 + 1))) := by
  induction l generalizing data with
  | nil => exact ⟨data, rfl, rfl, by simp, by simp⟩
  | cons a l ih =>
      rw [List.forall_mem_cons] at h
      let next := data.set (a.1 + 1) (Config.wrap 32 (a.2 + 1))
      have hstep : setOrder data a = some next := by simp [setOrder, h.1, next]
      obtain ⟨data', hrun, hlength, hframe, hset⟩ := @ih next (by simpa [next] using h.2)
      refine ⟨data', by simpa [List.foldlM_cons, hstep] using hrun, by simpa [next] using hlength, ?_, ?_⟩
      · intro j hj
        rw [List.forall_mem_cons] at hj
        rw [hframe j hj.2]
        simp [next, List.getElem?_set_ne hj.1]
      · intro hnodup e he
        obtain ⟨hfresh, hnodup⟩ := List.nodup_cons.mp hnodup
        rcases List.mem_cons.mp he with rfl | he
        · rw [hframe (e.1 + 1) fun b hb heq => hfresh (List.mem_map.mpr ⟨b, hb, Nat.succ.inj heq⟩)]
          simp [next, h.1]
        · exact hset hnodup e he

/-- The first element marks the pattern as set, the others are the orders of the dots. -/
theorem patternData_spec {pattern : List Nat} (h : ∀ dot ∈ pattern, dot < 16) :
    ∃ orders, patternData pattern = some (1 :: orders) ∧
      (∀ dot : Nat, dot ∉ pattern → ∀ order, orders[dot]? = some order → order = 0) ∧
      (pattern.Nodup → ∀ i dot : Nat, pattern[i]? = some dot → orders[dot]? = some (Config.wrap 32 (i + 1))) := by
  have hzip : ∀ e ∈ pattern.zipIdx, e.1 ∈ pattern := fun e he =>
    List.mem_of_getElem? (List.mem_zipIdx_iff_getElem?.mp he)
  obtain ⟨data, hrun, hlength, hframe, hset⟩ :=
    @setOrders_spec pattern.zipIdx ((List.replicate 17 0).set 0 1)
      (fun e he => by simpa using Nat.succ_lt_succ (h e.1 (hzip e he)))
  have hrun' : patternData pattern = some data := hrun
  cases data with
  | nil => simp at hlength
  | cons first orders =>
      have hfirst : first = 1 := by simpa using hframe 0 (by simp)
      refine ⟨orders, hfirst ▸ hrun', ?_, ?_⟩
      · intro dot hdot order horder
        have hkept := hframe (dot + 1) fun e he heq => hdot (Nat.succ.inj heq ▸ hzip e he)
        rw [List.getElem?_cons_succ, horder, List.getElem?_set_ne (by simp), List.getElem?_replicate] at hkept
        split at hkept
        · simpa using hkept
        · cases hkept
      · intro hnodup i dot hdot
        have hplace := hset (by simpa using hnodup) (dot, i) (List.mem_zipIdx_iff_getElem?.mpr hdot)
        simpa using hplace

theorem wrap_order {n : Nat} (h : n ≤ 16) : Config.wrap 32 n = n := by
  unfold Config.wrap
  exact Int.bmod_eq_of_le_mul_two (by omega) (by omega)

theorem mapM_toInt (orders : List Int) :
    (orders.map Value.long).mapM Value.toInt = some (orders.map (Config.wrap 32)) := by
  induction orders with
  | nil => rfl
  | cons o orders ih =>
      have hhead : (Value.long o).toInt = some (Config.wrap 32 o) := rfl
      simp [List.mapM_cons, ih, hhead]

/-- The record is marked and gives back what its orders say. -/
theorem verifyPattern_setPattern {pattern : List Nat} {orders : List Int} (h : patternData pattern = some (1 :: orders))
    (document : Document) : ∃ stored, document.setPattern pattern = some stored ∧ ∀ inputPattern,
      verifyPattern inputPattern stored =
        some (decide (inputPattern = savedPattern (orders.map (Config.wrap 32)))) := by
  refine ⟨_, by rw [Document.setPattern, h]; rfl, ?_⟩
  intro inputPattern
  have hmark : (Value.long 1).longValue = some 1 := rfl
  simp [verifyPattern, Field.safeCast, hmark, mapM_toInt, -List.mapM_map]

theorem savedPattern_of_nodup {pattern : List Nat} {orders : List Int} (hnodup : pattern.Nodup)
    (hdots : ∀ dot ∈ pattern, dot < 16)
    (hother : ∀ dot : Nat, dot ∉ pattern → ∀ order, orders[dot]? = some order → order = 0)
    (hset : ∀ i dot : Nat, pattern[i]? = some dot → orders[dot]? = some (Config.wrap 32 (i + 1))) :
    savedPattern (orders.map (Config.wrap 32)) = pattern := by
  have hlength : pattern.length ≤ 16 := by
    have hrange : pattern ⊆ List.range 16 := fun dot hdot => List.mem_range.mpr (hdots dot hdot)
    simpa using (hnodup.subperm hrange).length_le
  have hplace : ∀ i dot : Nat, pattern[i]? = some dot →
      (orders.map (Config.wrap 32))[dot]? = some ((i : Int) + 1) := by
    intro i dot hdot
    have hi : i < pattern.length := (List.getElem?_eq_some_iff.mp hdot).1
    have hwrap : Config.wrap 32 ((i : Int) + 1) = i + 1 := by
      simpa using wrap_order (n := i + 1) (by omega)
    rw [List.getElem?_map, hset i dot hdot, Option.map_some, hwrap, hwrap]
  apply savedPattern_of_numbered
  intro order dot
  constructor
  · rintro ⟨horder, hpos⟩
    by_cases hdot : dot ∈ pattern
    · obtain ⟨i, hi⟩ := List.mem_iff_getElem?.mp hdot
      exact ⟨i, hi, Option.some.inj (horder.symm.trans (hplace i dot hi))⟩
    · obtain ⟨stored, hstored, rfl⟩ := Option.map_eq_some_iff.mp ((List.getElem?_map).symm.trans horder)
      rw [hother dot hdot stored hstored] at hpos
      exact absurd hpos (by decide)
  · rintro ⟨i, hi, rfl⟩
    exact ⟨hplace i dot hi, by omega⟩

/-- The array has one order for each dot. -/
theorem storedAsDrawn_iff {pattern : List Nat} (h : ∀ dot ∈ pattern, dot < 16) :
    StoredAsDrawn pattern ↔ pattern.Nodup := by
  obtain ⟨orders, hdata, hother, hset⟩ := patternData_spec h
  constructor
  · intro hdrawn
    obtain ⟨stored, hstored, hverify⟩ := hdrawn ⟨.missing, .missing⟩
    obtain ⟨stored', hstored', hverify'⟩ := verifyPattern_setPattern hdata ⟨.missing, .missing⟩
    cases Option.some.inj (hstored.symm.trans hstored')
    have hrestored : pattern = savedPattern (orders.map (Config.wrap 32)) := by
      simpa using (hverify' pattern).symm.trans (hverify pattern)
    rw [hrestored]
    exact nodup_savedPattern _
  · intro hnodup document
    have hsaved := savedPattern_of_nodup hnodup h hother (hset hnodup)
    obtain ⟨stored, hstored, hverify⟩ := verifyPattern_setPattern hdata document
    exact ⟨stored, hstored, fun inputPattern => by rw [hverify, hsaved]⟩

/-! ## Touch events -/

namespace PatternLockView

variable {F : Type} [Add F] [Sub F] [Mul F] [NatCast F] [LE F] [DecidableLE F] {sqrt : F → F}
  {v : PatternLockView F} {e : MotionEvent F} {events : List (MotionEvent F)}

/-- The finger goes down on a dot that is selected already. -/
def TouchesSelected (sqrt : F → F) (v : PatternLockView F) : MotionEvent F → Prop
  | .down x y => ∃ dot ∈ v.findTouchedDot sqrt x y, dot ∈ v.selectedDots
  | _ => False

/-- The finger goes down on a selected dot, and later up. -/
def Repeats (sqrt : F → F) (v : PatternLockView F) : List (MotionEvent F) → Prop
  | [] => False
  | e :: events => v.TouchesSelected sqrt e ∧ .up ∈ events ∨ (v.onTouchEvent sqrt e).1.Repeats sqrt events

theorem findTouchedDot_lt {x y : F} {dot : Nat} (h : v.findTouchedDot sqrt x y = some dot) : dot < v.dots.length :=
  (List.findIdx?_eq_some_iff_getElem.mp h).1

theorem onTouchEvent_dots : (v.onTouchEvent sqrt e).1.dots = v.dots := by
  cases e with
  | down x y => simp only [onTouchEvent]; split <;> rfl
  | move x y => simp only [onTouchEvent]; split_ifs <;> (try split) <;> (try split_ifs) <;> rfl
  | up => rfl
  | other => rfl

/-- What a touch can do to the selection. -/
theorem onTouchEvent_cases (sqrt : F → F) (v : PatternLockView F) (e : MotionEvent F) :
    (v.onTouchEvent sqrt e).1.selectedDots = v.selectedDots ∧ ¬ v.TouchesSelected sqrt e ∨
    ∃ dot < v.dots.length, (v.onTouchEvent sqrt e).1.selectedDots = v.selectedDots ++ [dot] ∧
      (v.TouchesSelected sqrt e ↔ dot ∈ v.selectedDots) := by
  cases e with
  | down x y =>
      cases hdot : v.findTouchedDot sqrt x y with
      | none => left; simp [onTouchEvent, TouchesSelected, hdot]
      | some dot =>
          right
          exact ⟨dot, findTouchedDot_lt hdot, by simp [onTouchEvent, selectDot, hdot], by simp [TouchesSelected, hdot]⟩
  | move x y =>
      cases hdot : v.findTouchedDot sqrt x y with
      | none => left; simp [onTouchEvent, TouchesSelected, hdot]
      | some dot =>
          by_cases hnew : v.isDrawing = true ∧ dot ∉ v.selectedDots
          · right
            refine ⟨dot, findTouchedDot_lt hdot, ?_, by simp [TouchesSelected, hnew.2]⟩
            simp [onTouchEvent, selectDot, hdot, hnew.1, hnew.2]
          · left
            refine ⟨?_, by simp [TouchesSelected]⟩
            simp only [onTouchEvent, hdot]
            split_ifs with hdrawing hmem
            · rfl
            · exact absurd ⟨hdrawing, hmem⟩ hnew
            · rfl
  | up => left; exact ⟨rfl, by simp [TouchesSelected]⟩
  | other => left; exact ⟨rfl, by simp [TouchesSelected]⟩

theorem mem_onTouchEvent {pattern : List Nat} : pattern ∈ (v.onTouchEvent sqrt e).2.toList ↔
    e = .up ∧ pattern = v.selectedDots ∧ 2 ≤ v.selectedDots.length := by
  cases e with
  | down x y => simp only [onTouchEvent]; split <;> simp
  | move x y => simp only [onTouchEvent]; split_ifs <;> (try split) <;> (try split_ifs) <;> simp
  | up => simp only [onTouchEvent]; split_ifs with h <;> simp_all
  | other => simp [onTouchEvent]

theorem mem_patterns_cons {pattern : List Nat} : pattern ∈ v.patterns sqrt (e :: events) ↔
    (e = .up ∧ pattern = v.selectedDots ∧ 2 ≤ v.selectedDots.length) ∨
      pattern ∈ (v.onTouchEvent sqrt e).1.patterns sqrt events := by
  rw [patterns, List.mem_append, mem_onTouchEvent]

theorem patterns_of_not_up (h : .up ∉ events) : v.patterns sqrt events = [] := by
  induction events generalizing v with
  | nil => rfl
  | cons e events ih =>
      rw [List.mem_cons, not_or] at h
      apply List.eq_nil_iff_forall_not_mem.mpr
      intro pattern hpattern
      rcases mem_patterns_cons.mp hpattern with ⟨rfl, -⟩ | hlater
      · exact h.1 rfl
      · rw [ih h.2] at hlater; cases hlater

/-- The selected dots are dots of the view. -/
def Selectable (v : PatternLockView F) : Prop := ∀ dot ∈ v.selectedDots, dot < v.dots.length

theorem Selectable.onTouchEvent (h : v.Selectable) : (v.onTouchEvent sqrt e).1.Selectable := by
  intro dot hdot
  rw [onTouchEvent_dots]
  rcases onTouchEvent_cases sqrt v e with ⟨hsame, -⟩ | ⟨new, hnew, hadded, -⟩
  · exact h dot (hsame ▸ hdot)
  · rw [hadded, List.mem_append, List.mem_singleton] at hdot
    rcases hdot with hdot | rfl
    · exact h dot hdot
    · exact hnew

/-- A delivered pattern names dots of the view. -/
theorem patterns_selectable (h : v.Selectable) {pattern : List Nat} (hpattern : pattern ∈ v.patterns sqrt events) :
    ∀ dot ∈ pattern, dot < v.dots.length := by
  induction events generalizing v with
  | nil => cases hpattern
  | cons e events ih =>
      rcases mem_patterns_cons.mp hpattern with ⟨-, rfl, -⟩ | hlater
      · exact h
      · simpa [onTouchEvent_dots] using ih (h.onTouchEvent (e := e)) hlater

/-- A dot that is selected twice stays so, and the next finger that goes up delivers it. -/
theorem repeated_delivered (sqrt : F → F) (hrepeated : ¬ v.selectedDots.Nodup) (hup : .up ∈ events) :
    ∃ pattern ∈ v.patterns sqrt events, ¬ pattern.Nodup := by
  induction events generalizing v with
  | nil => cases hup
  | cons e events ih =>
      have hlength : 2 ≤ v.selectedDots.length := by
        by_contra hshort
        apply hrepeated
        cases hdots : v.selectedDots with
        | nil => exact List.nodup_nil
        | cons d rest => cases rest with
          | nil => exact List.nodup_singleton d
          | cons d' rest => simp [hdots] at hshort
      rcases List.mem_cons.mp hup with rfl | hlater
      · exact ⟨v.selectedDots, mem_patterns_cons.mpr (.inl ⟨rfl, rfl, hlength⟩), hrepeated⟩
      · have hkept : ¬ (v.onTouchEvent sqrt e).1.selectedDots.Nodup := by
          rcases onTouchEvent_cases sqrt v e with ⟨hsame, -⟩ | ⟨new, -, hadded, -⟩
          · rwa [hsame]
          · rw [hadded]; exact fun h => hrepeated (List.nodup_append.mp h).1
        obtain ⟨pattern, hpattern, hnot⟩ := ih hkept hlater
        exact ⟨pattern, mem_patterns_cons.mpr (.inr hpattern), hnot⟩

theorem Repeats.up_mem (h : v.Repeats sqrt events) : .up ∈ events := by
  induction events generalizing v with
  | nil => cases h
  | cons e events ih =>
      rcases h with ⟨-, hup⟩ | hlater
      · exact List.mem_cons_of_mem e hup
      · exact List.mem_cons_of_mem e (ih hlater)

/-- The delivered patterns have no dot twice exactly when no finger goes down on a selected dot before one goes up. -/
theorem patterns_nodup_iff (h : v.selectedDots.Nodup) :
    (∀ pattern ∈ v.patterns sqrt events, pattern.Nodup) ↔ ¬ v.Repeats sqrt events := by
  induction events generalizing v with
  | nil => simp [patterns, Repeats]
  | cons e events ih =>
      have hnow : (∀ pattern ∈ v.patterns sqrt (e :: events), pattern.Nodup) ↔
          ∀ pattern ∈ (v.onTouchEvent sqrt e).1.patterns sqrt events, pattern.Nodup := by
        constructor
        · intro hall pattern hpattern
          exact hall pattern (mem_patterns_cons.mpr (.inr hpattern))
        · intro hall pattern hpattern
          rcases mem_patterns_cons.mp hpattern with ⟨-, rfl, -⟩ | hlater
          · exact h
          · exact hall pattern hlater
      rw [hnow, Repeats, not_or]
      rcases onTouchEvent_cases sqrt v e with ⟨hsame, hnot⟩ | ⟨dot, -, hadded, hiff⟩
      · have hnodup : (v.onTouchEvent sqrt e).1.selectedDots.Nodup := hsame ▸ h
        simp [ih hnodup, hnot]
      by_cases htouches : v.TouchesSelected sqrt e
      · have hrepeated : ¬ (v.onTouchEvent sqrt e).1.selectedDots.Nodup := by
          rw [hadded, List.nodup_append]
          exact fun hnodup => hnodup.2.2 dot (hiff.mp htouches) dot (by simp) rfl
        constructor
        · intro hall
          have hnoup : .up ∉ events := by
            intro hup
            obtain ⟨pattern, hpattern, hnot⟩ := repeated_delivered sqrt hrepeated hup
            exact hnot (hall pattern hpattern)
          exact ⟨fun hboth => hnoup hboth.2, fun hlater => hnoup hlater.up_mem⟩
        · rintro ⟨hnow, -⟩
          have hnoup : .up ∉ events := fun hup => hnow ⟨htouches, hup⟩
          simp [patterns_of_not_up hnoup]
      · have hnodup : (v.onTouchEvent sqrt e).1.selectedDots.Nodup := by
          rw [hadded, List.nodup_append]
          refine ⟨h, List.nodup_singleton dot, ?_⟩
          intro a ha b hb heq
          rw [List.mem_singleton.mp hb] at heq
          exact htouches (hiff.mpr (heq ▸ ha))
        simp [ih hnodup, htouches]

/-- For every sequence of touches on a cleared view: each pattern that it delivers is stored as it was drawn exactly
when no finger goes down on a dot that is selected already, before a finger goes up. -/
theorem patterns_stored_iff [Div F] (v : PatternLockView F) (width height : Nat) (events : List (MotionEvent F)) :
    (∀ pattern ∈ (v.setupDots width height).clearPattern.patterns sqrt events, StoredAsDrawn pattern) ↔
      ¬ (v.setupDots width height).clearPattern.Repeats sqrt events := by
  have hdots : ∀ pattern ∈ (v.setupDots width height).clearPattern.patterns sqrt events, ∀ dot ∈ pattern, dot < 16 := by
    intro pattern hpattern dot hdot
    have hselectable : (v.setupDots width height).clearPattern.Selectable := by
      intro dot hdot
      cases hdot
    exact patterns_selectable hselectable hpattern dot hdot
  rw [← patterns_nodup_iff (by exact List.nodup_nil)]
  exact forall₂_congr fun pattern hpattern => storedAsDrawn_iff (hdots pattern hpattern)

end PatternLockView

/-! ### A dot that is tapped twice -/

/-- The square root of the squares. -/
def squareRoot (q : Rat) : Rat := (Nat.sqrt q.num.natAbs : Rat) / (Nat.sqrt q.den : Rat)

/-- The view of 500 by 500. -/
def squareView : PatternLockView Rat := ({} : PatternLockView Rat).setupDots 500 500

/-- Two taps on the first dot are stored as a pattern of this dot alone, and two taps on it do not unlock. -/
theorem tapped_twice_lost :
    squareView.clearPattern.patterns squareRoot [.down 100 100, .up, .down 100 100, .up] = [[0, 0]] ∧
      ((⟨.missing, .missing⟩ : Document).setPattern [0, 0]).bind (verifyPattern [0, 0]) = some false ∧
      ¬ StoredAsDrawn [0, 0] := by
  refine ⟨by decide +kernel, by decide, ?_⟩
  rw [storedAsDrawn_iff (by decide)]
  decide

end AllInSafe.AppLock
