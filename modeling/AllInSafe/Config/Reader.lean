import AllInSafe.Config.Numbers
import AllInSafe.Config.Escape
import AllInSafe.Config.Tokenizer

/-!
# Reading a configuration

`parseConfig` of `ConfigParser`: the lines of the text, the inline files and the table of options.
-/

namespace AllInSafe.Config
open AllInSafe.Library

/-- A character stream; a broken one fails where its text ends. -/
structure Reader where
  text : Str
  broken : Bool := false

/-- The lines after the beginning `cur` of one; `skipLF` tells whether a carriage return stands before. -/
def readLinesFrom (broken : Bool) (cur : Str) (skipLF : Bool) : Str → List Str
  | [] => if cur = [] || broken then [] else [cur]
  | c :: cs =>
      if c = '\n' then
        if skipLF then readLinesFrom broken cur false cs else cur :: readLinesFrom broken [] false cs
      else if c = '\r' then cur :: readLinesFrom broken [] true cs
      else readLinesFrom broken (cur ++ [c]) false cs

/-- What `readLine` returns one after the other. -/
def Reader.lines (reader : Reader) : List Str :=
  readLinesFrom reader.broken [] false reader.text

/-! ## The table of options -/

/-- The options by their names; the occurrences of one name are in the order of the text. -/
abbrev Options := List (Str × List (List Str))

namespace Options

def find (options : Options) (option : Str) : Option (List (List Str)) :=
  (List.find? (fun e => e.1 = option) options).map Prod.snd

def remove (options : Options) (option : Str) : Options :=
  List.filter (fun e => e.1 ≠ option) options

/-- `put`, at the place of an entry of the same name. -/
def put (option : Str) (args : List (List Str)) : Options → Options
  | [] => [(option, args)]
  | e :: es => if e.1 = option then (option, args) :: es else e :: put option args es

/-- One more occurrence. -/
def add (option : Str) (args : List Str) (options : Options) : Options :=
  options.put option ((options.find option).getD [] ++ [args])

end Options

structure ConfigParser where
  options : Options := []
  meta_ : List (Str × List Str) := []
  auth_user_pass_file : Option Str := none

/-! ## parseConfig -/

def optionAliases : List (Str × Str) := [("server-poll-timeout", "timeout-connect")]

def accessServer : Str := "# OVPN_ACCESS_SERVER_"

/-- The part after the tag, split at its first equals sign. -/
def parsemeta (line : Str) : List Str :=
  let rest := line.drop accessServer.length
  if rest.contains '=' then [rest.takeWhile (· ≠ '='), (rest.dropWhile (· ≠ '=')).tail] else [rest]

/-- The content up to the end tag, and the number of lines that are read for it. -/
def readInline (broken : Bool) (argname : Str) : List Str → Except Throwable (Str × Nat)
  | [] =>
      if broken then .error .ioException
      else .error (.configParseError ("No endtag </" ++ argname ++ "> for starttag <" ++ argname ++ "> found"))
  | line :: lines =>
      if Str.trim line = "</" ++ argname ++ ">" then .ok ([], 1)
      else (readInline broken argname lines).map fun (inlinefile, n) => (line ++ '\n' :: inlinefile, n + 1)

/-- The option with its inline file, and the number of lines that are read for it. -/
def checkinlinefile (broken : Bool) (args lines : List Str) : Except Throwable (List Str × Nat) := do
  let arg0 := Str.trim (← get args 0)
  if Str.startsWith "<" arg0 && Str.endsWith ">" arg0 then
    let argname := (arg0.drop 1).dropLast
    let (content, n) ← readInline broken argname lines
    let inlinefile := INLINE_TAG ++ content
    let inlinefile := if Str.endsWith "\n" inlinefile then inlinefile.dropLast else inlinefile
    return ([argname, inlinefile], n)
  else return (args, 0)

/-- A ZIP archive is refused and a byte order mark removed. -/
def firstLine (line : Str) : Except Throwable Str :=
  if Str.startsWith "PK\x03\x04" line || Str.startsWith "PK\x07\x008" line then
    .error (.configParseError
      "Input looks like a ZIP Archive. Import is only possible for OpenVPN config files (.ovpn/.conf)")
  else if Str.startsWith "\uFEFF" line then .ok (line.drop 1)
  else .ok line

/-- The option of a line, and the number of further lines that are read for it. -/
def readOption (broken : Bool) (line : Str) (lines : List Str) : Except Throwable (Option (List Str) × Nat) :=
  match parseline line with
  | .error message => .error (.configParseError message)
  | .ok [] => .ok (none, 0)
  | .ok (arg0 :: args) => do
      let arg0 := if Str.startsWith "--" arg0 then arg0.drop 2 else arg0
      let (args, n) ← checkinlinefile broken (arg0 :: args) lines
      return (some args, n)

def ConfigParser.addOption (parser : ConfigParser) (args : List Str) : Except Throwable ConfigParser := do
  let optionname ← get args 0
  let optionname := ((optionAliases.find? fun a => a.1 = optionname).map Prod.snd).getD optionname
  return { parser with options := parser.options.add optionname args }

def ConfigParser.putMeta (parser : ConfigParser) (metaarg : List Str) : Except Throwable ConfigParser := do
  let key ← get metaarg 0
  return { parser with meta_ := (key, metaarg) :: parser.meta_.filter fun e => e.1 ≠ key }

/-- The loop over the lines; the next `skip` ones have been read as an inline file. -/
def parseLines (broken : Bool) (parser : ConfigParser) (lineno skip : Nat) :
    List Str → Except Throwable ConfigParser
  | [] => if broken then .error .ioException else .ok parser
  | line :: lines =>
      match skip with
      | skip + 1 => parseLines broken parser lineno skip lines
      | 0 => do
          let line ← if lineno = 1 then firstLine line else pure line
          if Str.startsWith accessServer line then
            parseLines broken (← parser.putMeta (parsemeta line)) (lineno + 1) 0 lines
          else
            let (args, n) ← readOption broken line lines
            match args with
            | none => parseLines broken parser (lineno + 1) 0 lines
            | some args => parseLines broken (← parser.addOption args) (lineno + 1) n lines

def parseConfig (reader : Reader) (parser : ConfigParser) : Except Throwable ConfigParser :=
  parseLines reader.broken parser 1 0 reader.lines

end AllInSafe.Config
