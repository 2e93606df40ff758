import AllInSafe.Config.Tokenizer
import AllInSafe.Library.Utf8

/-!
# The command line of the management interface

`command_line_add` and `command_line_get` of OpenVPN, and what `man_process_command` makes of the line. A byte is the
character of its number.
-/

namespace AllInSafe.Management
open AllInSafe.Library AllInSafe.Config

/-- `char_class` for `CC_PRINT`. -/
def isPrint (c : Char) : Bool := 32 ≤ c.toNat && c.toNat ≠ 127

/-- The capacity of the command line. -/
def COMMAND_LINE_SIZE : Nat := 1024

/-- A byte for which there is no room clears the buffer. -/
def command_line_write (buf : Str) (c : Char) : Str := if buf.length < COMMAND_LINE_SIZE then buf ++ [c] else []

def command_line_add (buf bytes : Str) : Str :=
  (bytes.filter fun c => c ≠ NUL && (isPrint c || c = '\n')).foldl command_line_write buf

/-- `buf_chomp`. -/
def chompBuffer (buf : Str) : Str :=
  (buf.reverse.dropWhile fun c => c = '\r' || c = '\n' || c = NUL).reverse

def command_line_get (buf : Str) : Option Str :=
  if '\n' ∈ buf then some (chompBuffer (buf.takeWhile (· ≠ '\n'))) else none

def man_process_command (line : Str) : Except String (List Str) :=
  parse_line ⟨"TCP", 0⟩ OPTION_PARM_SIZE MAX_PARMS line

/-- The parameters that a command written to an empty command line is split into. -/
def received (cmd : Str) : Option (List Str) :=
  (command_line_get (command_line_add [] (Utf8.octets cmd))).bind fun line => (man_process_command line).toOption

end AllInSafe.Management
