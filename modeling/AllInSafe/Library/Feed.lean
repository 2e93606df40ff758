import Mathlib.Data.List.Chain
import Mathlib.Tactic.Common

/-!
# Feeds

A source publishes its values one after the other. A replica that gets such a message takes it or ignores it.
-/

namespace AllInSafe.Library.Feed

variable {α : Type} {ignores : α → α → Bool} {a m : α} {ms ns : List α}

/-- The value of a replica after a message. -/
def receive (ignores : α → α → Bool) (a m : α) : α := if ignores a m then a else m

def replay (ignores : α → α → Bool) (a : α) (ms : List α) : α := ms.foldl (receive ignores) a

/-- After the messages the replica has the value `m`, or one with which it ignores `m`. -/
def Reaches (ignores : α → α → Bool) (a : α) (ms : List α) (m : α) : Prop :=
  replay ignores a ms = m ∨ ignores (replay ignores a ms) m = true

/-- The values that a source has published: it ignores none of its own messages. -/
abbrev Published (ignores : α → α → Bool) (ms : List α) : Prop := ms.IsChain fun a m => ignores a m = false

@[simp] theorem replay_nil : replay ignores a [] = a := rfl

@[simp] theorem replay_cons : replay ignores a (m :: ms) = replay ignores (receive ignores a m) ms := rfl

@[simp] theorem replay_append : replay ignores a (ms ++ ns) = replay ignores (replay ignores a ms) ns :=
  List.foldl_append

theorem receive_of_ignores (h : ignores a m = true) : receive ignores a m = a := if_pos h

theorem receive_of_not_ignores (h : ignores a m = false) : receive ignores a m = m := by
  simp [receive, h]

theorem reaches_cons {n : α} : Reaches ignores a (m :: ms) n ↔ Reaches ignores (receive ignores a m) ms n := Iff.rfl

theorem reaches_append_last : Reaches ignores a (ms ++ [m]) m := by
  cases h : ignores (replay ignores a ms) m with
  | true => exact Or.inr (by simp [receive_of_ignores h, h])
  | false => exact Or.inl (by simp [receive_of_not_ignores h])

/-- A replica that is level with the source stays so. -/
theorem replay_published (h : Published ignores (a :: ms)) : replay ignores a ms = ms.getLast?.getD a := by
  induction ms generalizing a with
  | nil => rfl
  | cons m ms ih =>
      obtain ⟨hm, hms⟩ := List.isChain_cons_cons.mp h
      rw [replay_cons, receive_of_not_ignores hm, ih hms, List.getLast?_cons, Option.getD_some]

/-- A replica with any value ends level with the source, or ignores all that is published. -/
theorem replay_eq_or (h : Published ignores ms) (hlast : ∀ n ∈ ms.getLast?, n = m) :
    replay ignores a ms = m ∨ replay ignores a ms = a := by
  induction ms with
  | nil => exact Or.inr rfl
  | cons n ms ih =>
      cases hn : ignores a n with
      | false =>
          rw [replay_cons, receive_of_not_ignores hn, replay_published h]
          exact Or.inl (hlast _ (by simp [List.getLast?_cons]))
      | true =>
          rw [replay_cons, receive_of_ignores hn]
          refine ih h.tail fun k hk => hlast k ?_
          cases ms with
          | nil => cases hk
          | cons l ms => rwa [List.getLast?_cons_cons]

/-- What was published before the message `m` does no harm behind it. -/
theorem Reaches.replayed (h : Reaches ignores a ms m) (hns : Published ignores ns) (hlast : ∀ n ∈ ns.getLast?, n = m) :
    Reaches ignores a (ms ++ ns) m := by
  rw [Reaches, replay_append]
  cases replay_eq_or hns hlast with
  | inl hend => exact Or.inl hend
  | inr hstays => rwa [hstays]

theorem Published.concat (h : Published ignores ms) (hm : ∀ n ∈ ms.getLast?, ignores n m = false) :
    Published ignores (ms ++ [m]) := by
  refine List.isChain_append.mpr ⟨h, List.isChain_singleton m, fun n hn k hk => ?_⟩
  cases hk
  exact hm n hn

end AllInSafe.Library.Feed
