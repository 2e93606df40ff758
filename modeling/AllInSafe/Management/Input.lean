import AllInSafe.Library.Text
import AllInSafe.Library.Utf8

/-!
# The input of the management socket

The reads of `run` of `OpenVpnManagementThread` and `processInput`, and the lines of a text.
-/

namespace AllInSafe.Management
open AllInSafe.Library

/-! ## processInput -/

/-- `split("\\r?\\n", 2)` of a text with a newline. -/
def splitLine : Str → Option (Str × Str)
  | [] => none
  | '\n' :: cs => some ([], cs)
  | '\r' :: '\n' :: cs => some ([], cs)
  | c :: cs => (splitLine cs).map fun (line, rest) => (c :: line, rest)

theorem splitLine_length {text line rest : Str} (h : splitLine text = some (line, rest)) :
    rest.length < text.length := by
  fun_induction splitLine text generalizing line with
  | case1 => cases h
  | case2 cs => cases h; exact Nat.lt_succ_self _
  | case3 cs => cases h; exact Nat.lt_of_lt_of_le (Nat.lt_succ_self _) (Nat.le_succ _)
  | case4 c cs _ _ ih =>
      obtain ⟨⟨line', rest'⟩, hsplit, heq⟩ := Option.map_eq_some_iff.mp h
      cases heq
      exact Nat.lt_succ_of_lt (ih hsplit)

/-- The commands that are processed, and what is pending after them. -/
def processInput (pendingInput : Str) : List Str × Str :=
  match h : splitLine pendingInput with
  | none => ([], pendingInput)
  | some (command, rest) =>
      have := splitLine_length h
      (command :: (processInput rest).1, (processInput rest).2)
termination_by pendingInput.length

/-! ## run -/

structure Session where
  commands : List Str := []
  pendingInput : Str := []
  deriving DecidableEq, Repr

/-- One iteration of the loop, for the bytes of one read. -/
def Session.read (s : Session) (buffer : List UInt8) : Session :=
  let (commands, pendingInput) := processInput (s.pendingInput ++ Utf8.decode buffer)
  { commands := s.commands ++ commands, pendingInput := pendingInput }

def run (reads : List (List UInt8)) : Session := reads.foldl Session.read {}

/-! ## The lines of a text -/

/-- A line without the carriage return before its newline. -/
def chomp (line : Str) : Str := if line.getLast? = some '\r' then line.dropLast else line

def completeLines (text : Str) : List Str := (Str.parts (· = '\n') text).dropLast.map chomp

/-- What follows the last newline. -/
def remainder (text : Str) : Str := (Str.parts (· = '\n') text).getLastD []

end AllInSafe.Management
