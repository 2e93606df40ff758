import AllInSafe.Library.Text
import Mathlib

/-!
# Numbers and netmasks in a configuration

What `parseInt` reads, and the netmask conversion of `CIDRIP` with the arithmetic of `int` and `long`.
-/

namespace AllInSafe.Config
open AllInSafe.Library

/-! ## Exceptions -/

/-- What the importer may throw; `endless` stands for a loop that never ends, and `noSuchElement` covers the
`InputMismatchException` of a `Scanner`. -/
inductive Throwable
  | configParseError (message : Str)
  | ioException
  | numberFormat (input : Str)
  | arrayIndexOutOfBounds
  | stringIndexOutOfBounds
  | noSuchElement
  | endless
  deriving DecidableEq, Repr

/-- `get` of a vector, or the element of an array. -/
def get (v : List Str) (i : Nat) : Except Throwable Str :=
  match v[i]? with
  | some s => .ok s
  | none => .error .arrayIndexOutOfBounds

/-! ## Integers -/

/-- The decimal zeros of the Basic Multilingual Plane; the other nine digits of a script follow its zero. -/
def decimalZeros : List Nat :=
  [0x0030, 0x0660, 0x06F0, 0x07C0, 0x0966, 0x09E6, 0x0A66, 0x0AE6, 0x0B66, 0x0BE6, 0x0C66, 0x0CE6, 0x0D66, 0x0DE6,
    0x0E50, 0x0ED0, 0x0F20, 0x1040, 0x1090, 0x17E0, 0x1810, 0x1946, 0x19D0, 0x1A80, 0x1A90, 0x1B50, 0x1BB0, 0x1C40,
    0x1C50, 0xA620, 0xA8D0, 0xA900, 0xA9D0, 0xA9F0, 0xAA50, 0xABF0, 0xFF10]

/-- `Character.digit` to the base ten. -/
def digit (c : Char) : Option Nat :=
  (decimalZeros.find? fun z => z ≤ c.toNat && c.toNat ≤ z + 9).map (c.toNat - ·)

def digits (s : Str) : Option Nat :=
  s.foldl (fun n c => n.bind fun n => (digit c).map (10 * n + ·)) (some 0)

/-- `Integer.parseInt` with 32 bits, `Long.parseLong` with 64. -/
def parseInteger (bits : Nat) (s : Str) : Except Throwable Int :=
  let value : Option Int := match s with
    | [] => none
    | '-' :: ds => if ds = [] then none else (digits ds).map fun n => -n
    | '+' :: ds => if ds = [] then none else (digits ds).map Int.ofNat
    | ds => (digits ds).map Int.ofNat
  match value with
  | some n => if -2 ^ (bits - 1) ≤ n ∧ n < 2 ^ (bits - 1) then .ok n else .error (.numberFormat s)
  | none => .error (.numberFormat s)

def parseInt (s : Str) : Except Throwable Int := parseInteger 32 s

def parseLong (s : Str) : Except Throwable Int := parseInteger 64 s

/-- The value of an `int` or a `long` after an overflow. -/
def wrap (bits : Nat) (n : Int) : Int := n.bmod (2 ^ bits)

/-! ## CIDRIP -/

structure CIDRIP where
  mIp : Str
  len : Nat
  deriving DecidableEq, Repr

namespace CIDRIP

def getInt (ipaddr : Str) : Except Throwable Int := do
  let ipt := Str.split (· = '.') ipaddr
  let ip := wrap 64 ((← parseLong (← get ipt 0)) * 2 ^ 24)
  let ip := wrap 64 (ip + wrap 32 ((← parseInt (← get ipt 1)) * 2 ^ 16))
  let ip := wrap 64 (ip + wrap 32 ((← parseInt (← get ipt 2)) * 2 ^ 8))
  return wrap 64 (ip + (← parseInt (← get ipt 3)))

/-- The loop over the zeros at the end of the netmask, with a bound for its iterations. -/
def countZeros : Nat → Int → Nat → Option (Int × Nat)
  | 0, _, _ => none
  | fuel + 1, netmask, lenZeros =>
      if netmask % 2 = 0 then countZeros fuel (netmask / 2) (lenZeros + 1) else some (netmask, lenZeros)

/-- A `long` other than zero has at most 63 zeros at its end; for zero the loop does not end. -/
def calculateLenFromMask (mask : Str) : Except Throwable Nat := do
  let netmask := wrap 64 ((← getInt mask) + 2 ^ 32)
  match countZeros 64 netmask 0 with
  | none => throw .endless
  | some (netmask, lenZeros) => return if netmask ≠ 0x1ffffffff / 2 ^ lenZeros then 32 else 32 - lenZeros

def ofNetmask (ip mask : Str) : Except Throwable CIDRIP := do
  return ⟨ip, ← calculateLenFromMask mask⟩

def toString (cidr : CIDRIP) : Str := cidr.mIp ++ '/' :: (Nat.repr cidr.len).toList

end CIDRIP

end AllInSafe.Config
