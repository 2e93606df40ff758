import AllInSafe.Library.Outcome
import AllInSafe.Config.Reader
import Mathlib.Tactic.Common

/-!
# A configuration as a sequence of records

What the lines of a text say, without the tables in which the parser keeps it.
-/

namespace AllInSafe.Config
open AllInSafe.Library

inductive Record
  | option (args : List Str)
  | server (metaarg : List Str)
  deriving DecidableEq, Repr

/-- The first line is checked. -/
def checkLine (lineno : Nat) (line : Str) : Except Throwable Str := if lineno = 1 then firstLine line else .ok line

/-- The record of a line, and the number of further lines that are read for it. -/
def readRecord (broken : Bool) (line : Str) (lines : List Str) : Except Throwable (Option Record × Nat) :=
  if Str.startsWith accessServer line then .ok (some (.server (parsemeta line)), 0)
  else (readOption broken line lines).map fun (args, n) => (args.map .option, n)

def readRecords (broken : Bool) (lineno skip : Nat) : List Str → Except Throwable (List Record)
  | [] => if broken then .error .ioException else .ok []
  | line :: lines =>
      match skip with
      | skip + 1 => readRecords broken lineno skip lines
      | 0 => do
          let (record, n) ← readRecord broken (← checkLine lineno line) lines
          (readRecords broken (lineno + 1) n lines).map (record.toList ++ ·)

/-- The name under which an option is kept. -/
def keyOf (optionname : Str) : Str := ((optionAliases.find? fun a => a.1 = optionname).map Prod.snd).getD optionname

def ConfigParser.store (parser : ConfigParser) : Record → ConfigParser
  | .option [] | .server [] => parser
  | .option (optionname :: args) =>
      { parser with options := parser.options.add (keyOf optionname) (optionname :: args) }
  | .server (key :: metaarg) =>
      { parser with meta_ := (key, key :: metaarg) :: parser.meta_.filter fun e => e.1 ≠ key }

/-! ## The parser stores the records -/

section

variable {broken : Bool} {line : Str} {lines args : List Str} {n : Nat}

theorem checkinlinefile_ne_nil {args' : List Str} (h : checkinlinefile broken args lines = .ok (args', n)) :
    args' ≠ [] := by
  cases args with
  | nil => cases h
  | cons arg0 args =>
      change (if _ then _ else _) = _ at h
      split at h
      case isTrue =>
          change (readInline broken _ lines >>= _) = _ at h
          obtain ⟨r, -, h⟩ := bind_eq_ok.mp h
          cases h
          exact List.cons_ne_nil _ _
      case isFalse => cases h; exact List.cons_ne_nil _ _

theorem readOption_ne_nil (h : readOption broken line lines = .ok (some args, n)) : args ≠ [] := by
  rw [readOption] at h
  split at h
  case h_1 => cases h
  case h_2 => cases h
  case h_3 arg0 rest _ =>
      change (checkinlinefile broken _ lines >>= _) = _ at h
      obtain ⟨r, hcheck, h⟩ := bind_eq_ok.mp h
      cases h
      exact checkinlinefile_ne_nil hcheck

theorem readOption_none (h : readOption broken line lines = .ok (none, n)) : n = 0 := by
  rw [readOption] at h
  split at h
  case h_1 => cases h
  case h_2 => cases h; rfl
  case h_3 arg0 rest _ =>
      change (checkinlinefile broken _ lines >>= _) = _ at h
      obtain ⟨r, -, h⟩ := bind_eq_ok.mp h
      cases h

theorem parsemeta_ne_nil (line : Str) : parsemeta line ≠ [] := by
  rw [parsemeta]
  split <;> exact List.cons_ne_nil _ _

theorem addOption_eq (parser : ConfigParser) (h : args ≠ []) :
    parser.addOption args = .ok (parser.store (.option args)) := by
  cases args with
  | nil => exact absurd rfl h
  | cons optionname args => rfl

theorem putMeta_eq (parser : ConfigParser) {metaarg : List Str} (h : metaarg ≠ []) :
    parser.putMeta metaarg = .ok (parser.store (.server metaarg)) := by
  cases metaarg with
  | nil => exact absurd rfl h
  | cons key metaarg => rfl

end

/-- What `parseLines` does with a checked line. -/
def parseLine (broken : Bool) (parser : ConfigParser) (lineno : Nat) (line : Str) (lines : List Str) :
    Except Throwable ConfigParser := do
  if Str.startsWith accessServer line then
    parseLines broken (← parser.putMeta (parsemeta line)) (lineno + 1) 0 lines
  else
    let (args, n) ← readOption broken line lines
    match args with
    | none => parseLines broken parser (lineno + 1) 0 lines
    | some args => parseLines broken (← parser.addOption args) (lineno + 1) n lines

theorem parseLines_cons (broken : Bool) (parser : ConfigParser) (lineno : Nat) (line : Str) (lines : List Str) :
    parseLines broken parser lineno 0 (line :: lines) =
      (checkLine lineno line).bind fun line => parseLine broken parser lineno line lines := by
  rw [parseLines, checkLine]
  split
  case isTrue => rfl
  case isFalse => rfl

theorem readRecords_cons (broken : Bool) (lineno : Nat) (line : Str) (lines : List Str) :
    readRecords broken lineno 0 (line :: lines) =
      (checkLine lineno line).bind fun line => (readRecord broken line lines).bind fun r =>
        (readRecords broken (lineno + 1) r.2 lines).map (r.1.toList ++ ·) := rfl

theorem readRecords_cons_ok {broken : Bool} {lineno n : Nat} {line line' : Str} {lines : List Str}
    {record : Option Record} (hline : checkLine lineno line = .ok line')
    (hrecord : readRecord broken line' lines = .ok (record, n)) :
    readRecords broken lineno 0 (line :: lines) =
      (readRecords broken (lineno + 1) n lines).map (record.toList ++ ·) := by
  simp only [readRecords_cons, hline, hrecord, Except.bind]

theorem parseLines_eq (broken : Bool) (parser : ConfigParser) (lineno skip : Nat) (lines : List Str) :
    parseLines broken parser lineno skip lines =
      (readRecords broken lineno skip lines).map fun rs => rs.foldl ConfigParser.store parser := by
  induction lines generalizing parser lineno skip with
  | nil =>
      rw [parseLines, readRecords]
      split <;> rfl
  | cons line lines ih =>
      have hrest : ∀ (record : Option Record) (n : Nat),
          parseLines broken (record.toList.foldl ConfigParser.store parser) (lineno + 1) n lines =
            ((readRecords broken (lineno + 1) n lines).map (record.toList ++ ·)).map
              fun rs => rs.foldl ConfigParser.store parser := fun record n => by
        rw [ih]
        cases readRecords broken (lineno + 1) n lines with
        | error e => rfl
        | ok rs => exact congrArg Except.ok List.foldl_append.symm
      cases skip with
      | succ skip => exact ih parser lineno skip
      | zero =>
          rw [parseLines_cons, readRecords_cons]
          cases checkLine lineno line with
          | error e => rfl
          | ok line =>
              simp only [Except.bind, parseLine, readRecord]
              by_cases hmeta : Str.startsWith accessServer line
              · rw [if_pos hmeta, if_pos hmeta, putMeta_eq parser (parsemeta_ne_nil line)]
                exact hrest (some (.server (parsemeta line))) 0
              · rw [if_neg hmeta, if_neg hmeta]
                cases hoption : readOption broken line lines with
                | error e => rfl
                | ok r =>
                    obtain ⟨_ | args, n⟩ := r
                    · obtain rfl := readOption_none hoption
                      exact hrest none 0
                    · simp only [Except.map, bind, Except.bind]
                      rw [addOption_eq parser (readOption_ne_nil hoption)]
                      exact hrest (some (.option args)) n

end AllInSafe.Config
