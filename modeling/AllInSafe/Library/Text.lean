/-!
# Strings as lists of characters
-/

namespace AllInSafe.Library

abbrev Str := List Char

instance : Coe String Str := ⟨String.toList⟩

instance : LawfulBEq Str := inferInstance

/-- Checked along the string, not over all characters. -/
instance (priority := 2000) {p : Char → Prop} [DecidablePred p] (s : Str) : Decidable (∀ c ∈ s, p c) :=
  List.decidableBAll p s

instance (priority := 2000) {p : Char → Prop} [DecidablePred p] (s : Str) : Decidable (∃ c ∈ s, p c) :=
  List.decidableBEx p s

namespace Str

/-- Every `c` replaced by the string `t`. -/
def replace (c : Char) (t s : Str) : Str := s.flatMap fun d => if d = c then t else [d]

def startsWith (t s : Str) : Bool := t.isPrefixOf s

/-- The first position at which `t` stands in `s`. -/
def indexOf (t : Str) : Str → Option Nat
  | [] => if t = [] then some 0 else none
  | c :: cs => if startsWith t (c :: cs) then some 0 else (indexOf t cs).map (· + 1)

/-- What follows the first `t` of `s`; all of `s` where there is none. -/
def after (t s : Str) : Str :=
  match indexOf t s with
  | none => s
  | some i => s.drop (i + t.length)

def endsWith (t s : Str) : Bool := t.isSuffixOf s

/-- Some part of `s` is `t`. -/
def containsStr (t s : Str) : Bool := (indexOf t s).isSome

/-- Without the characters up to the space at both ends. -/
def trim (s : Str) : Str :=
  let blank := fun c : Char => c.toNat ≤ 0x20
  ((s.dropWhile blank).reverse.dropWhile blank).reverse

/-- The parts between the separators. -/
def parts (sep : Char → Bool) : Str → List Str
  | [] => [[]]
  | c :: cs =>
      if sep c then [] :: parts sep cs
      else match parts sep cs with
        | [] => [[c]]
        | p :: ps => (c :: p) :: ps

/-- The parts without the empty ones at the end; a string without a separator is one part. -/
def split (sep : Char → Bool) (s : Str) : List Str :=
  if s.any sep then ((parts sep s).reverse.dropWhile List.isEmpty).reverse else [s]

end Str

end AllInSafe.Library
