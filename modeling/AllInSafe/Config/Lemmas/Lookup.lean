import AllInSafe.Config.Importer
import AllInSafe.Library.Outcome
import Mathlib.Tactic.Common

/-!
# What looking up an option returns
-/

namespace AllInSafe.Config
open AllInSafe.Library

/-- An exception that the importer declares. -/
def Throwable.Declared : Throwable → Prop
  | .configParseError _ | .ioException => True
  | .numberFormat _ | .arrayIndexOutOfBounds | .stringIndexOutOfBounds | .noSuchElement | .endless => False

instance : DecidablePred Throwable.Declared
  | .configParseError _ | .ioException => .isTrue trivial
  | .numberFormat _ | .arrayIndexOutOfBounds | .stringIndexOutOfBounds | .noSuchElement | .endless => .isFalse id

/-- A value in `Q`, or an exception that the importer declares. -/
abbrev Declares {α : Type} (Q : α → Prop) (m : Except Throwable α) : Prop := Outcome Q Throwable.Declared m

/-! ## Tables without empty entries -/

namespace Options

/-- Every name has an occurrence, and every occurrence a first element. -/
def WellFormed (options : Options) : Prop :=
  ∀ e ∈ options, e.2 ≠ [] ∧ ∀ args ∈ e.2, args ≠ []

variable {options : Options} {option key : Str} {args : List (List Str)}

theorem mem_of_find (h : options.find option = some args) : (option, args) ∈ options := by
  rw [find, Option.map_eq_some_iff] at h
  obtain ⟨e, he, rfl⟩ := h
  have hkey : e.1 = option := by simpa using List.find?_some he
  rw [← hkey]
  exact List.mem_of_find?_eq_some he

theorem mem_remove {e : Str × List (List Str)} : e ∈ options.remove option ↔ e ∈ options ∧ e.1 ≠ option := by
  simp [remove]

theorem WellFormed.remove (h : options.WellFormed) : (options.remove option).WellFormed :=
  fun e he => h e (mem_remove.mp he).1

theorem mem_put {e : Str × List (List Str)} (h : e ∈ options.put option args) :
    e ∈ options ∨ e = (option, args) := by
  induction options with
  | nil => exact .inr (List.mem_singleton.mp h)
  | cons d ds ih =>
      rw [put] at h
      split at h
      · rcases List.mem_cons.mp h with rfl | h
        · exact .inr rfl
        · exact .inl (List.mem_cons_of_mem d h)
      · rcases List.mem_cons.mp h with rfl | h
        · exact .inl List.mem_cons_self
        · exact (ih h).imp_left (List.mem_cons_of_mem d)

theorem WellFormed.put (h : options.WellFormed) (hne : args ≠ []) (hargs : ∀ a ∈ args, a ≠ []) :
    (options.put option args).WellFormed := by
  intro e he
  rcases mem_put he with he | rfl
  · exact h e he
  · exact ⟨hne, hargs⟩

theorem WellFormed.of_find (h : options.WellFormed) (hfind : options.find option = some args) :
    args ≠ [] ∧ ∀ a ∈ args, a ≠ [] :=
  h _ (mem_of_find hfind)

theorem WellFormed.add (h : options.WellFormed) {a : List Str} (ha : a ≠ []) : (options.add option a).WellFormed := by
  refine h.put (by simp) fun b hb => ?_
  rcases List.mem_append.mp hb with hb | hb
  · cases hfind : options.find option with
    | none => rw [hfind] at hb; cases hb
    | some args => rw [hfind] at hb; exact (h.of_find hfind).2 b hb
  · rw [List.mem_singleton.mp hb]
    exact ha

end Options

/-! ## Arity checks -/

/-- What an arity check guarantees. -/
def HasArity (minarg maxarg : Nat) (args : List Str) : Prop :=
  minarg + 1 ≤ args.length ∧ args.length ≤ maxarg + 1

section

variable {options : Options} {option : Str} {minarg maxarg : Nat}

theorem declares_getAllOption (h : options.WellFormed) :
    Declares (fun r => r.2.WellFormed ∧ ∀ args ∈ r.1, args ≠ [] ∧ ∀ a ∈ args, HasArity minarg maxarg a)
      (getAllOption option minarg maxarg options) := by
  rw [getAllOption]
  cases hfind : options.find option with
  | none => exact ⟨h, fun _ hn => by cases hn⟩
  | some args =>
      dsimp only
      cases hcheck : args.find? fun l => l.length < minarg + 1 || l.length > maxarg + 1 with
      | some a => exact trivial
      | none =>
          refine ⟨h.remove, fun args' he => ?_⟩
          obtain rfl : args = args' := Option.some.inj he
          refine ⟨(h.of_find hfind).1, fun a ha => ?_⟩
          have hlen := List.find?_eq_none.mp hcheck a ha
          simp only [Bool.or_eq_true, decide_eq_true_eq, not_or, Nat.not_lt] at hlen
          exact hlen

theorem declares_getOption (h : options.WellFormed) :
    Declares (fun r => r.2.WellFormed ∧ ∀ args ∈ r.1, HasArity minarg maxarg args)
      (getOption option minarg maxarg options) := by
  rw [getOption]
  refine (declares_getAllOption h).bind fun (alloptions, options') ⟨hwf, hargs⟩ => ?_
  cases alloptions with
  | none => exact ⟨hwf, fun _ hn => by cases hn⟩
  | some alloptions =>
      obtain ⟨hne, harity⟩ := hargs alloptions rfl
      have hlast := List.getLast?_eq_some_getLast hne
      dsimp only
      rw [hlast]
      refine ⟨hwf, fun args he => ?_⟩
      obtain rfl : alloptions.getLast hne = args := Option.some.inj he
      exact harity _ (List.getLast_mem hne)

end

namespace Conversion

/-- The table of the conversion has no empty entries. -/
def WellFormed (s : Conversion) : Prop := s.parser.options.WellFormed

variable {s : Conversion} {option : Str} {minarg maxarg : Nat}

theorem declares_getAllOption (h : s.WellFormed) :
    Declares (fun r => r.2.WellFormed ∧ ∀ args ∈ r.1, args ≠ [] ∧ ∀ a ∈ args, HasArity minarg maxarg a)
      (s.getAllOption option minarg maxarg) :=
  (Config.declares_getAllOption h).map fun _ hr => hr

theorem declares_getOption (h : s.WellFormed) :
    Declares (fun r => r.2.WellFormed ∧ ∀ args ∈ r.1, HasArity minarg maxarg args) (s.getOption option minarg maxarg) :=
  (Config.declares_getOption h).map fun _ hr => hr

end Conversion

end AllInSafe.Config
