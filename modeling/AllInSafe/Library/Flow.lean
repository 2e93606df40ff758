/-!
# Loops that may be left or fail in the middle
-/

namespace AllInSafe.Library

/-- What one iteration of a loop does. -/
inductive Flow (ε σ : Type)
  | next (s : σ)
  | stop (s : σ)
  | throw (e : ε)

namespace Flow

variable {α ε σ : Type}

/-- The loop over the elements of a list. -/
def loop (f : σ → α → Flow ε σ) (s : σ) : List α → Except ε σ
  | [] => .ok s
  | a :: as =>
      match f s a with
      | .next s' => loop f s' as
      | .stop s' => .ok s'
      | .throw e => .error e

variable {f : σ → α → Flow ε σ} {s s' : σ} {a : α} {as : List α} {e : ε}

@[simp] theorem loop_nil : loop f s [] = .ok s := rfl

theorem loop_next (h : f s a = .next s') : loop f s (a :: as) = loop f s' as := by simp [loop, h]

theorem loop_stop (h : f s a = .stop s') : loop f s (a :: as) = .ok s' := by simp [loop, h]

theorem loop_throw (h : f s a = .throw e) : loop f s (a :: as) = .error e := by simp [loop, h]

end Flow

end AllInSafe.Library
