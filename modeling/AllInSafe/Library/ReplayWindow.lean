import Mathlib

/-!
# Replay windows

What a receiver remembers of the numbers it has accepted: those of the newest era, each with the time at which it came.
A number is refused when it has been accepted, when it is too far behind the highest one, or when it has expired.
-/

namespace AllInSafe.Library

/-- No number up to `expired` is accepted any more. -/
structure ReplayWindow (τ : Type) where
  era : τ
  top : Nat := 0
  expired : Nat := 0
  seen : List (Nat × Int) := []

namespace ReplayWindow

variable {τ : Type} {width id n : Nat} {age now : Int} {w : ReplayWindow τ} {t : τ}

/-- The numbers up to one that came more than `age` ago expire. -/
def expire (age now : Int) (w : ReplayWindow τ) : ReplayWindow τ :=
  { w with expired := (w.seen.filter fun e => e.2 + age < now).foldr (fun e m => max e.1 m) w.expired }

theorem expired_lt_iff {es : List (Nat × Int)} :
    es.foldr (fun e m => max e.1 m) n < id ↔ n < id ∧ ∀ e ∈ es, e.1 < id := by
  induction es with
  | nil => simp
  | cons e es ih =>
      rw [List.foldr_cons, max_lt_iff, ih, List.forall_mem_cons]
      tauto

theorem expire_expired_lt_iff : (w.expire age now).expired < id ↔
    w.expired < id ∧ ∀ e ∈ w.seen, e.2 + age < now → e.1 < id := by
  simp only [expire, expired_lt_iff, List.mem_filter, decide_eq_true_eq, and_imp]

@[simp] theorem expire_era : (w.expire age now).era = w.era := rfl

@[simp] theorem expire_top : (w.expire age now).top = w.top := rfl

@[simp] theorem expire_seen : (w.expire age now).seen = w.seen := rfl

/-- The numbers of the newest era, each once, and none above the highest. -/
structure Sound (w : ReplayWindow τ) : Prop where
  nodup : (w.seen.map Prod.fst).Nodup
  seen_le : ∀ e ∈ w.seen, e.1 ≤ w.top
  expired_le : w.expired ≤ w.top

theorem Sound.expire (h : w.Sound) : (w.expire age now).Sound where
  nodup := h.nodup
  seen_le := h.seen_le
  expired_le := by
    have hlt : (w.expire age now).expired < w.top + 1 := expire_expired_lt_iff.mpr
      ⟨Nat.lt_succ_of_le h.expired_le, fun e he _ => Nat.lt_succ_of_le (h.seen_le e he)⟩
    exact Nat.le_of_lt_succ hlt

/-! ## Accepting -/

variable [LinearOrder τ]

def Accepts (width : Nat) (w : ReplayWindow τ) (t : τ) (id : Nat) : Prop :=
  w.era < t ∨ w.era = t ∧ w.top < id + width ∧ w.expired < id ∧ id ∉ w.seen.map Prod.fst

def record (now : Int) (t : τ) (id : Nat) (w : ReplayWindow τ) : ReplayWindow τ :=
  if w.era < t then { era := t, top := id, seen := [(id, now)] }
  else { w with top := max w.top id, seen := (id, now) :: w.seen }

theorem record_era (now : Int) (haccepts : w.Accepts width t id) : (w.record now t id).era = t := by
  unfold record
  split_ifs with hnew
  · rfl
  · exact (haccepts.resolve_left hnew).1

theorem record_top : (w.record now t id).top = if w.era < t then id else max w.top id := by
  unfold record
  split_ifs <;> rfl

theorem Sound.record (h : w.Sound) (now : Int) (haccepts : w.Accepts width t id) : (w.record now t id).Sound := by
  unfold ReplayWindow.record
  split_ifs with hnew
  · exact ⟨List.nodup_singleton _, by simp, Nat.zero_le _⟩
  · obtain ⟨-, -, -, hfresh⟩ := haccepts.resolve_left hnew
    refine ⟨List.nodup_cons.mpr ⟨hfresh, h.nodup⟩, ?_, le_trans h.expired_le (le_max_left _ _)⟩
    rw [List.forall_mem_cons]
    exact ⟨le_max_right _ _, fun e he => le_trans (h.seen_le e he) (le_max_left _ _)⟩

/-! ## What a window remembers -/

/-- Of the pairs that have been accepted, none is of a later era, and those of the newest era are seen. -/
def Remembers (w : ReplayWindow τ) (accepted : List (τ × Nat)) : Prop :=
  ∀ e ∈ accepted, e.1 < w.era ∨ e.1 = w.era ∧ e.2 ∈ w.seen.map Prod.fst

variable {accepted : List (τ × Nat)}

theorem Remembers.expire (h : w.Remembers accepted) : (w.expire age now).Remembers accepted := h

theorem Remembers.record (h : w.Remembers accepted) (haccepts : w.Accepts width t id) :
    (w.record now t id).Remembers ((t, id) :: accepted) := by
  intro e he
  unfold ReplayWindow.record
  split_ifs with hnew
  · rcases List.mem_cons.mp he with rfl | he
    · exact .inr ⟨rfl, by simp⟩
    · rcases h e he with hlt | ⟨heq, -⟩
      · exact .inl (hlt.trans hnew)
      · exact .inl (heq ▸ hnew)
  · obtain ⟨hera, -⟩ := haccepts.resolve_left hnew
    rcases List.mem_cons.mp he with rfl | he
    · exact .inr ⟨hera.symm, by simp⟩
    · exact (h e he).imp_right fun ⟨heq, hmem⟩ => ⟨heq, List.mem_cons_of_mem _ hmem⟩

/-- What is accepted has not been accepted before. -/
theorem Remembers.not_mem (h : w.Remembers accepted) (haccepts : w.Accepts width t id) : (t, id) ∉ accepted := by
  intro hmem
  rcases h _ hmem with hlt | ⟨heq, hseen⟩
  · rcases haccepts with hnew | ⟨hera, -⟩
    · exact absurd (hlt.trans hnew) (lt_irrefl _)
    · exact absurd hlt (by simp [hera])
  · rcases haccepts with hnew | ⟨-, -, -, hfresh⟩
    · exact absurd (heq ▸ hnew) (lt_irrefl _)
    · exact hfresh hseen

end ReplayWindow

end AllInSafe.Library
