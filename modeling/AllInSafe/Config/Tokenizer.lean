import AllInSafe.Library.Flow
import AllInSafe.Library.Text

/-!
# The two tokenizers of a configuration line

`parseline` of `ConfigParser` and `parse_line` of OpenVPN, which it was adapted from. A string is its list of
characters.
-/

namespace AllInSafe.Config
open AllInSafe.Library

def NUL : Char := '\x00'

/-! ## ConfigParser -/

abbrev ConfigParseError := String

/-- `Character.isWhitespace`. -/
def isWhitespace (c : Char) : Bool :=
  let n := c.toNat
  (0x09 ≤ n && n ≤ 0x0D) || (0x1C ≤ n && n ≤ 0x20) || n = 0x1680 || (0x2000 ≤ n && n ≤ 0x2006) ||
    (0x2008 ≤ n && n ≤ 0x200A) || n = 0x2028 || n = 0x2029 || n = 0x205F || n = 0x3000

def space (c : Char) : Bool := isWhitespace c || c = NUL

inductive linestate
  | initial
  | readin_single_quote
  | reading_quoted
  | reading_unquoted
  | done
  deriving DecidableEq, Repr

/-- The local variables of `parseline`. -/
structure Parseline where
  parameters : List Str := []
  state : linestate := .initial
  backslash : Bool := false
  out : Char := NUL
  currentarg : Str := []
  deriving DecidableEq, Repr

namespace Parseline

/-- The cascade over the states: the new state and `out`, or `none` where a comment starts. -/
def read (s : Parseline) (c : Char) : Option (linestate × Char) :=
  match s.state with
  | .initial =>
      if space c then some (.initial, s.out)
      else if c = ';' || c = '#' then none
      else if !s.backslash && c = '"' then some (.reading_quoted, s.out)
      else if !s.backslash && c = '\'' then some (.readin_single_quote, s.out)
      else some (.reading_unquoted, c)
  | .reading_unquoted =>
      if !s.backslash && space c then some (.done, s.out) else some (.reading_unquoted, c)
  | .reading_quoted =>
      if !s.backslash && c = '"' then some (.done, s.out) else some (.reading_quoted, c)
  | .readin_single_quote =>
      if c = '\'' then some (.done, s.out) else some (.readin_single_quote, c)
  | .done => some (.done, s.out)

def store (s : Parseline) : Parseline :=
  if s.out ≠ NUL then { s with currentarg := s.currentarg ++ [s.out] } else s

/-- One iteration; `out` keeps its value from the iteration before. -/
def step (s : Parseline) (c : Char) : Flow ConfigParseError Parseline :=
  if !s.backslash && c = '\\' && s.state ≠ .readin_single_quote then
    .next { s with backslash := true }.store
  else
    match s.read c with
    | none => .stop s
    | some (state, out) =>
        let s :=
          if state = .done then
            { s with state := .initial, parameters := s.parameters ++ [s.currentarg], currentarg := [], out := NUL }
          else { s with state := state, out := out }
        if s.backslash && s.out ≠ NUL && !(s.out = '\\' || s.out = '"' || space s.out) then
          .throw "Options warning: Bad backslash ('\\') usage"
        else .next { s with backslash := false }.store

end Parseline

/-- The last iteration reads a NUL in place of the end of the line. -/
def parseline (line : Str) : Except ConfigParseError (List Str) :=
  if line.length = 0 then .ok []
  else (Flow.loop Parseline.step {} (line ++ [NUL])).map Parseline.parameters

/-! ## OpenVPN -/

/-- `isspace` in the C locale. -/
def isspace (c : Char) : Bool := (0x09 ≤ c.toNat && c.toNat ≤ 0x0D) || c = ' '

def cspace (c : Char) : Bool := c = NUL || isspace c

inductive ParseState
  | initial
  | reading_quoted_parm
  | reading_unquoted_parm
  | done
  | reading_squoted_parm
  deriving DecidableEq, Repr

/-- The number by which the message on a residual state names it. -/
def ParseState.number : ParseState → Nat
  | .initial => 0
  | .reading_quoted_parm => 1
  | .reading_unquoted_parm => 2
  | .done => 3
  | .reading_squoted_parm => 4

def OPTION_PARM_SIZE : Nat := 256
def MAX_PARMS : Nat := 16

/-- The local variables of `parse_line`; `ret` is the length of `p`. -/
structure ParseLine where
  p : List Str := []
  state : ParseState := .initial
  backslash : Bool := false
  parm : Str := []
  deriving DecidableEq, Repr

/-- The position that the messages of `parse_line` name. -/
structure Position where
  file : String
  line_num : Nat

namespace ParseLine

/-- The cascade over the states: the new state and `out`, or `none` where a comment starts. -/
def read (s : ParseLine) (c : Char) : Option (ParseState × Char) :=
  match s.state with
  | .initial =>
      if cspace c then some (.initial, NUL)
      else if c = ';' || c = '#' then none
      else if !s.backslash && c = '"' then some (.reading_quoted_parm, NUL)
      else if !s.backslash && c = '\'' then some (.reading_squoted_parm, NUL)
      else some (.reading_unquoted_parm, c)
  | .reading_unquoted_parm =>
      if !s.backslash && cspace c then some (.done, NUL) else some (.reading_unquoted_parm, c)
  | .reading_quoted_parm =>
      if !s.backslash && c = '"' then some (.done, NUL) else some (.reading_quoted_parm, c)
  | .reading_squoted_parm =>
      if c = '\'' then some (.done, NUL) else some (.reading_squoted_parm, c)
  | .done => some (.done, NUL)

def badBackslash (pos : Position) : String :=
  s!"Options warning: Bad backslash ('\\') usage in {pos.file}:{pos.line_num}: remember that backslashes are treated as shell-escapes and if you need to pass backslash characters as part of a Windows filename, you should use double backslashes such as \"c:\\\\openvpn\\\\static.key\""

def tooLong (pos : Position) (size : Nat) (parm : Str) : String :=
  s!"Options error: Parameter at {pos.file}:{pos.line_num} is too long ({size} chars max): {String.ofList parm}"

/-- One iteration, with room for `size` characters a parameter and `n` parameters. -/
def step (pos : Position) (size n : Nat) (s : ParseLine) (c : Char) : Flow String ParseLine :=
  if !s.backslash && c = '\\' && s.state ≠ .reading_squoted_parm then
    let s := { s with backslash := true }
    if n ≤ s.p.length then .stop s else .next s
  else
    match s.read c with
    | none => .stop s
    | some (state, out) =>
        let s := if state = .done then { s with state := .initial, p := s.p ++ [s.parm], parm := [] }
          else { s with state := state }
        if s.backslash && out ≠ NUL && !(out = '\\' || out = '"' || cspace out) then .throw (badBackslash pos)
        else
          let s := { s with backslash := false }
          if out ≠ NUL && size ≤ s.parm.length then .throw (tooLong pos size (s.parm.take (size - 1)))
          else
            let s := if out ≠ NUL then { s with parm := s.parm ++ [out] } else s
            if n ≤ s.p.length then .stop s else .next s

/-- The checks after the loop. -/
def finish (pos : Position) (s : ParseLine) : Except String (List Str) :=
  match s.state with
  | .reading_quoted_parm => .error s!"Options error: No closing quotation (\") in {pos.file}:{pos.line_num}"
  | .reading_squoted_parm => .error s!"Options error: No closing single quotation (') in {pos.file}:{pos.line_num}"
  | .initial => .ok s.p
  | state => .error s!"Options error: Residual parse state ({state.number}) in {pos.file}:{pos.line_num}"

end ParseLine

/-- The string ends at its first NUL, which the last iteration reads. -/
def parse_line (pos : Position) (size n : Nat) (line : Str) : Except String (List Str) :=
  (Flow.loop (ParseLine.step pos size n) {} (line.takeWhile (· ≠ NUL) ++ [NUL])).bind (ParseLine.finish pos)

end AllInSafe.Config
