import AllInSafe.Library.BigEndian
import AllInSafe.Library.Text
import AllInSafe.Library.Utf8

/-!
# Log items and their binary form

`getMarschaledBytes` of `LogItem` and the constructor that reads its bytes.
-/

namespace AllInSafe.Log
open AllInSafe.Library

inductive Throwable
  | nullPointer
  | bufferOverflow
  | bufferUnderflow
  | indexOutOfBounds
  | negativeArraySize
  | unsupportedEncoding
  | endOfFile
  deriving DecidableEq, Repr

/-! ## Items -/

inductive LogLevel
  | INFO
  | ERROR
  | WARNING
  | VERBOSE
  | DEBUG
  deriving DecidableEq, Repr

namespace LogLevel

def getInt : LogLevel → BitVec 32
  | INFO => 2
  | ERROR => -2
  | WARNING => 1
  | VERBOSE => 3
  | DEBUG => 4

def getEnumByValue (value : BitVec 32) : Option LogLevel :=
  if value = 2 then some INFO
  else if value = -2 then some ERROR
  else if value = 1 then some WARNING
  else if value = 3 then some VERBOSE
  else if value = 4 then some DEBUG
  else none

end LogLevel

/-- An argument; floating-point numbers are their bits, and of an object of another class only what its `toString`
returns counts. -/
inductive Arg
  | string (str : Str)
  | int (i : BitVec 32)
  | float (bits : BitVec 32)
  | double (bits : BitVec 64)
  | long (l : BitVec 64)
  | null
  | other (str : Str)
  deriving DecidableEq, Repr

structure LogItem where
  mArgs : Option (List Arg) := none
  mMessage : Option Str := none
  mRessourceId : BitVec 32 := 0
  mLevel : Option LogLevel := some .INFO
  logtime : BitVec 64
  mVerbosityLevel : BitVec 32 := -1
  deriving DecidableEq, Repr

def LogItem.verify (li : LogItem) : Bool := li.mLevel.isSome && !(li.mMessage.isNone && li.mRessourceId = 0)

/-! ## Writing -/

/-- What has been written into the buffer. -/
abbrev Buffer := List UInt8

def capacity : Nat := 16384

namespace Buffer

def remaining (bb : Buffer) : Nat := capacity - bb.length

def put (bs : List UInt8) (bb : Buffer) : Except Throwable Buffer :=
  if bs.length ≤ remaining bb then .ok (bb ++ bs) else .error .bufferOverflow

def putChar (c : Char) (bb : Buffer) : Except Throwable Buffer := put (BigEndian.bytes 2 c.toNat) bb

def putInt (i : BitVec 32) (bb : Buffer) : Except Throwable Buffer := put (BigEndian.bytes 4 i.toNat) bb

def putLong (l : BitVec 64) (bb : Buffer) : Except Throwable Buffer := put (BigEndian.bytes 8 l.toNat) bb

/-- The first `length` bytes of `src`. -/
def putFirst (src : List UInt8) (length : Int) (bb : Buffer) : Except Throwable Buffer :=
  if length < 0 ∨ src.length < length then .error .indexOutOfBounds else put (src.take length.toNat) bb

end Buffer

open Buffer

def elipse : List UInt8 := Utf8.encode "...[too long]"

def maxStringLength (bb : Buffer) : Int := min 8192 ((remaining bb : Int) - 128)

def marschalString (str : Str) (bb : Buffer) : Except Throwable Buffer := do
  let utf8bytes := Utf8.encode str
  if utf8bytes.length > maxStringLength bb then
    let written ← putInt (BitVec.ofInt 32 (maxStringLength bb + elipse.length)) bb
    put elipse (← putFirst utf8bytes (maxStringLength bb) written)
  else
    put utf8bytes (← putInt (BitVec.ofNat 32 utf8bytes.length) bb)

def putArg (bb : Buffer) : Arg → Except Throwable Buffer
  | .string str => do marschalString str (← putChar 's' bb)
  | .int i => do putInt i (← putChar 'i' bb)
  | .float bits => do putInt bits (← putChar 'f' bb)
  | .double bits => do putLong bits (← putChar 'd' bb)
  | .long l => do putLong l (← putChar 'l' bb)
  | .null => putChar '0' bb
  | .other str => do marschalString str (← putChar 's' bb)

def putMessage (mMessage : Option Str) (bb : Buffer) : Except Throwable Buffer :=
  match mMessage with
  | none | some [] => putInt 0 bb
  | some message => marschalString message bb

def putArgs (mArgs : Option (List Arg)) (bb : Buffer) : Except Throwable Buffer :=
  match mArgs with
  | none | some [] => putInt 0 bb
  | some args => do args.foldlM putArg (← putInt (BitVec.ofNat 32 args.length) bb)

namespace LogItem

/-- The fields before the message. -/
def putHead (li : LogItem) : Except Throwable Buffer := do
  let bb ← put [0] []
  let bb ← putLong li.logtime bb
  let bb ← putInt li.mVerbosityLevel bb
  match li.mLevel with
  | none => throw .nullPointer
  | some mLevel => putInt li.mRessourceId (← putInt mLevel.getInt bb)

def getMarschaledBytes (li : LogItem) : Except Throwable (List UInt8) := do
  putArgs li.mArgs (← putMessage li.mMessage (← li.putHead))

end LogItem

/-! ## Reading -/

namespace Buffer

/-- The next `n` bytes and what remains after them. -/
def getBytes (n : Nat) (bb : List UInt8) : Except Throwable (List UInt8 × List UInt8) :=
  if n ≤ bb.length then .ok (bb.take n, bb.drop n) else .error .bufferUnderflow

def getNumber (n : Nat) (bb : List UInt8) : Except Throwable (Nat × List UInt8) :=
  (getBytes n bb).map fun (bs, bb) => (BigEndian.value bs, bb)

def getChar (bb : List UInt8) : Except Throwable (Nat × List UInt8) := getNumber 2 bb

def getInt (bb : List UInt8) : Except Throwable (BitVec 32 × List UInt8) :=
  (getNumber 4 bb).map fun (n, bb) => (BitVec.ofNat 32 n, bb)

def getLong (bb : List UInt8) : Except Throwable (BitVec 64 × List UInt8) :=
  (getNumber 8 bb).map fun (n, bb) => (BitVec.ofNat 64 n, bb)

/-- A new array of `len` bytes, filled from the buffer. -/
def getArray (len : BitVec 32) (bb : List UInt8) : Except Throwable (List UInt8 × List UInt8) :=
  if len.toInt < 0 then .error .negativeArraySize else getBytes len.toNat bb

end Buffer

def unmarschalString (bb : List UInt8) : Except Throwable (Str × List UInt8) := do
  let (len, bb) ← getInt bb
  (getArray len bb).map fun (utf8bytes, bb) => (Utf8.decode utf8bytes, bb)

def getMessage (bb : List UInt8) : Except Throwable (Option Str × List UInt8) := do
  let (len, bb) ← getInt bb
  if len = 0 then return (none, bb)
  else if len.toInt > bb.length then throw .indexOutOfBounds
  else (getArray len bb).map fun (utf8bytes, bb) => (some (Utf8.decode utf8bytes), bb)

/-- The argument after its type. -/
def getArgOf (type : Nat) (bb : List UInt8) : Except Throwable (Arg × List UInt8) :=
  if type = 's'.toNat then (unmarschalString bb).map fun (str, bb) => (.string str, bb)
  else if type = 'i'.toNat then (getInt bb).map fun (i, bb) => (.int i, bb)
  else if type = 'd'.toNat then (getLong bb).map fun (bits, bb) => (.double bits, bb)
  else if type = 'f'.toNat then (getInt bb).map fun (bits, bb) => (.float bits, bb)
  else if type = 'l'.toNat then (getLong bb).map fun (l, bb) => (.long l, bb)
  else if type = '0'.toNat then .ok (.null, bb)
  else .error .unsupportedEncoding

def getArg (bb : List UInt8) : Except Throwable (Arg × List UInt8) := do
  let (type, bb) ← getChar bb
  getArgOf type bb

def getArgsLoop : Nat → List UInt8 → Except Throwable (List Arg × List UInt8)
  | 0, bb => .ok ([], bb)
  | n + 1, bb => do
      let (arg, bb) ← getArg bb
      (getArgsLoop n bb).map fun (args, bb) => (arg :: args, bb)

def getArgs (bb : List UInt8) : Except Throwable (Option (List Arg) × List UInt8) := do
  let (numArgs, bb) ← getInt bb
  if numArgs.toInt > 30 then throw .indexOutOfBounds
  else if numArgs = 0 then return (none, bb)
  else if numArgs.toInt < 0 then throw .negativeArraySize
  else (getArgsLoop numArgs.toNat bb).map fun (args, bb) => (some args, bb)

namespace LogItem

/-- The constructor from bytes. -/
def ofBytes (bytes : List UInt8) (length : Int) : Except Throwable LogItem :=
  if length < 0 ∨ bytes.length < length then .error .indexOutOfBounds
  else do
    let (_, bb) ← getBytes 1 (bytes.take length.toNat)
    let (logtime, bb) ← getLong bb
    let (mVerbosityLevel, bb) ← getInt bb
    let (level, bb) ← getInt bb
    let (mRessourceId, bb) ← getInt bb
    let (mMessage, bb) ← getMessage bb
    let (mArgs, bb) ← getArgs bb
    if bb ≠ [] then throw .unsupportedEncoding
    else return {
      mArgs := mArgs
      mMessage := mMessage
      mRessourceId := mRessourceId
      mLevel := LogLevel.getEnumByValue level
      logtime := logtime
      mVerbosityLevel := mVerbosityLevel }

end LogItem

end AllInSafe.Log
