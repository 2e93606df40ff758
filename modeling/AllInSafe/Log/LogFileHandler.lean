import AllInSafe.Log.VpnStatus

/-!
# The log cache

The record format of `LogFileHandler` and the loop of `readCacheContents`.
-/

namespace AllInSafe.Log
open AllInSafe.Library

def MAGIC_BYTE : UInt8 := 0x55

/-! ## Writing -/

def escapeByte (b : UInt8) : List UInt8 :=
  if b = MAGIC_BYTE ∨ b = MAGIC_BYTE + 1 then [MAGIC_BYTE + 1, b - MAGIC_BYTE] else [b]

/-- The bytes that `writeEscapedBytes` adds to the file. -/
def writeEscapedBytes (bytes : List UInt8) : List UInt8 :=
  MAGIC_BYTE :: (BigEndian.bytes 4 (BitVec.ofNat 32 bytes.length).toNat ++ bytes.flatMap escapeByte)

def writeLogItemToDisk (mLogFile : List UInt8) (li : LogItem) : Except Throwable (List UInt8) := do
  return mLogFile ++ writeEscapedBytes (← li.getMarschaledBytes)

/-! ## The calls of the reader -/

/-- The calls of `VpnStatus` that the reader makes. -/
inductive LogCall
  | cached (li : LogItem)
  | noMagic (skipped : Nat)
  | skipped (skipped : Nat)
  | unexpectedMagic (pos : Nat)
  | badEscape (b : UInt8)
  | unverified (buf : List UInt8) (len : BitVec 32)
  | tooMany
  | rereadLog (itemsRead : Nat)
  deriving DecidableEq, Repr

/-- The calls, and the exception that ends the reading, if there is one. -/
structure Reading where
  calls : List LogCall
  thrown : Option Throwable
  deriving DecidableEq, Repr

def Reading.after (r : Reading) (calls : List LogCall) : Reading := { r with calls := calls ++ r.calls }

/-- The effect of one call on the log buffer; `message` is the item of one of the reader's own messages. -/
def LogCall.apply (message : LogCall → LogItem) (logbuffer : List LogItem) : LogCall → List LogItem
  | .cached li => newLogItem li true logbuffer
  | call => newLogItem (message call) false logbuffer

/-! ## Reading -/

/-- A byte array with the length of `buf`. -/
abbrev Bytes := Nat → UInt8

def bufLength : Nat := 16384

/-- `read(buf, off, len)` with `len` above zero. -/
def readInto (buf : Bytes) (off len : Nat) (file : List UInt8) : Int × Bytes × List UInt8 :=
  if file = [] then (-1, buf, [])
  else
    let bytes := file.take len
    (bytes.length, fun i => if off ≤ i ∧ i < off + bytes.length then bytes.getD (i - off) 0 else buf i, file.drop len)

/-- `read()` as a byte; the end of the file reads as -1. -/
def readByte : List UInt8 → UInt8 × List UInt8
  | [] => (0xFF, [])
  | b :: file => (b, file)

/-- The loop that skips to a magic byte; none where it breaks. -/
def findMagic (buf : Bytes) (skipped : Nat) : List UInt8 → Nat × Option (Bytes × List UInt8)
  | [] => if buf skipped = MAGIC_BYTE then (skipped, some (buf, [])) else (skipped + 1, none)
  | b :: file =>
      if buf skipped = MAGIC_BYTE then (skipped, some (buf, b :: file))
      else if skipped + 1 + 10 > bufLength then (skipped + 1, none)
      else findMagic (readInto buf (skipped + 1 + 4) 1 (b :: file)).2.1 (skipped + 1) file

/-- The length that stands behind the magic byte. -/
def lengthAt (buf : Bytes) (skipped : Nat) : BitVec 32 :=
  BitVec.ofNat 32 (BigEndian.value [buf (skipped + 1), buf (skipped + 2), buf (skipped + 3), buf (skipped + 4)])

inductive Content
  | complete (buf2 file : List UInt8)
  | aborted (call : LogCall) (file : List UInt8)
  | overrun
  deriving DecidableEq, Repr

/-- The loop over the bytes of an item, `n` of which are still to be read. -/
def readContent : Nat → List UInt8 → List UInt8 → Content
  | 0, buf2, file => .complete buf2 file
  | n + 1, buf2, file =>
      let store := fun (b : UInt8) (file : List UInt8) =>
        if buf2.length < bufLength then readContent n (buf2 ++ [b]) file else .overrun
      let (b, file) := readByte file
      if b = MAGIC_BYTE then .aborted (.unexpectedMagic buf2.length) file
      else if b = MAGIC_BYTE + 1 then
        let (b, file) := readByte file
        if b = 0 then store MAGIC_BYTE file
        else if b = 1 then store (MAGIC_BYTE + 1) file
        else .aborted (.badEscape b) file
      else store b file

def restoreLogItem (buf : List UInt8) (len : BitVec 32) : Except Throwable LogCall := do
  let li ← LogItem.ofBytes buf len.toInt
  return if li.verify then .cached li else .unverified buf len

/-- What `readloop` does next: it ends, or it goes on with a header. -/
inductive Next
  | stop (thrown : Option Throwable) (itemsRead : Nat)
  | header (buf : Bytes) (file : List UInt8) (itemsRead : Nat)

/-- The header is read to `off`; the bytes in front of it stay. -/
def nextHeader (buf : Bytes) (off : Nat) (file : List UInt8) (itemsRead : Nat) : Next :=
  let (read, buf, file) := readInto buf off (5 - off) file
  if read + off ≥ 5 then .header buf file itemsRead else .stop none itemsRead

/-- The content behind a length, and what it makes the loop do next. -/
def readItem (buf : Bytes) (len : BitVec 32) (file : List UInt8) (itemsRead : Nat) : List LogCall × Next :=
  match readContent len.toInt.toNat [] file with
  | .overrun => ([], .stop (some .indexOutOfBounds) itemsRead)
  | .aborted call file => ([call], nextHeader buf 1 file itemsRead)
  | .complete buf2 file =>
      match restoreLogItem buf2 len with
      | .error e => ([], .stop (some e) itemsRead)
      | .ok call =>
          if itemsRead + 1 > 2 * MAXLOGENTRIES then ([call, .tooMany], .stop none (itemsRead + 1))
          else ([call], nextHeader buf 0 file (itemsRead + 1))

/-- One iteration of `readloop`, after a whole header. -/
def readIteration (buf : Bytes) (file : List UInt8) (itemsRead : Nat) : List LogCall × Next :=
  match findMagic buf 0 file with
  | (skipped, none) => ([.noMagic skipped], .stop none itemsRead)
  | (skipped, some (buf, file)) =>
      let item := readItem buf (lengthAt buf skipped) file itemsRead
      ((if skipped > 0 then [.skipped skipped] else []) ++ item.1, item.2)

/-! ### The loop ends -/

theorem readByte_le (file : List UInt8) : (readByte file).2.length ≤ file.length := by
  cases file with
  | nil => exact Nat.le_refl 0
  | cons b file => exact Nat.le_succ _

theorem findMagic_le {buf buf' : Bytes} {skipped n : Nat} {file file' : List UInt8}
    (h : findMagic buf skipped file = (n, some (buf', file'))) : file'.length ≤ file.length := by
  induction file generalizing buf skipped with
  | nil =>
      rw [findMagic] at h
      split at h
      case isTrue => cases h; exact Nat.le_refl 0
      case isFalse => cases h
  | cons b file ih =>
      rw [findMagic] at h
      split at h
      case isTrue => cases h; exact Nat.le_refl _
      split at h
      case isTrue => cases h
      case isFalse => exact Nat.le_succ_of_le (ih h)

/-- The file after a content, whether it is complete or not. -/
def Content.file : Content → List UInt8
  | .complete _ file | .aborted _ file => file
  | .overrun => []

theorem readContent_le (n : Nat) (buf2 file : List UInt8) : (readContent n buf2 file).file.length ≤ file.length := by
  induction n generalizing buf2 file with
  | zero => exact Nat.le_refl _
  | succ n ih =>
      have hfirst := readByte_le file
      have hsecond := readByte_le (readByte file).2
      have hstore : ∀ b file', file'.length ≤ file.length →
          (if buf2.length < bufLength then readContent n (buf2 ++ [b]) file' else .overrun).file.length ≤
            file.length := fun b file' hle => by
        split
        case isTrue => exact Nat.le_trans (ih _ _) hle
        case isFalse => exact Nat.zero_le _
      rw [readContent]
      dsimp only
      split
      case isTrue => exact hfirst
      split
      case isTrue =>
          split
          case isTrue => exact hstore _ _ (Nat.le_trans hsecond hfirst)
          split
          case isTrue => exact hstore _ _ (Nat.le_trans hsecond hfirst)
          case isFalse => exact Nat.le_trans hsecond hfirst
      case isFalse => exact hstore _ _ hfirst

/-- A header takes bytes from the file. -/
theorem nextHeader_lt {buf buf' : Bytes} {off itemsRead n : Nat} {file file' : List UInt8} (hoff : off < 5)
    (h : nextHeader buf off file itemsRead = .header buf' file' n) : file'.length < file.length := by
  by_cases hnil : file = []
  · rw [nextHeader, readInto, if_pos hnil] at h
    dsimp only at h
    rw [if_neg (by omega)] at h
    cases h
  · have hpos := List.length_pos_iff.mpr hnil
    rw [nextHeader, readInto, if_neg hnil] at h
    dsimp only at h
    split at h
    case isTrue =>
        cases h
        rw [List.length_drop]
        omega
    case isFalse => cases h

section

variable {buf : Bytes} {len : BitVec 32} {file rest buf2 : List UInt8} {itemsRead : Nat}

theorem readItem_overrun (h : readContent len.toInt.toNat [] file = .overrun) :
    readItem buf len file itemsRead = ([], .stop (some .indexOutOfBounds) itemsRead) := by
  rw [readItem, h]

theorem readItem_aborted {call : LogCall} (h : readContent len.toInt.toNat [] file = .aborted call rest) :
    readItem buf len file itemsRead = ([call], nextHeader buf 1 rest itemsRead) := by
  rw [readItem, h]

theorem readItem_refused {e : Throwable} (h : readContent len.toInt.toNat [] file = .complete buf2 rest)
    (he : restoreLogItem buf2 len = .error e) :
    readItem buf len file itemsRead = ([], .stop (some e) itemsRead) := by
  rw [readItem, h]
  simp only [he]

theorem readItem_restored {call : LogCall} (h : readContent len.toInt.toNat [] file = .complete buf2 rest)
    (hcall : restoreLogItem buf2 len = .ok call) :
    readItem buf len file itemsRead =
      if itemsRead + 1 > 2 * MAXLOGENTRIES then ([call, .tooMany], .stop none (itemsRead + 1))
      else ([call], nextHeader buf 0 rest (itemsRead + 1)) := by
  rw [readItem, h]
  simp only [hcall]

theorem readItem_lt {calls : List LogCall} {buf' : Bytes} {file' : List UInt8} {n : Nat}
    (h : readItem buf len file itemsRead = (calls, .header buf' file' n)) : file'.length < file.length := by
  have hle := readContent_le len.toInt.toNat [] file
  cases hcontent : readContent len.toInt.toNat [] file with
  | overrun => rw [readItem_overrun hcontent] at h; cases h
  | aborted call rest =>
      rw [readItem_aborted hcontent] at h
      rw [hcontent] at hle
      injection h with _ h
      exact Nat.lt_of_lt_of_le (nextHeader_lt (by decide) h) hle
  | complete buf2 rest =>
      rw [hcontent] at hle
      cases hrestored : restoreLogItem buf2 len with
      | error e => rw [readItem_refused hcontent hrestored] at h; cases h
      | ok call =>
          rw [readItem_restored hcontent hrestored] at h
          split at h
          case isTrue => cases h
          case isFalse =>
              injection h with _ h
              exact Nat.lt_of_lt_of_le (nextHeader_lt (by decide) h) hle

end

section

variable {buf buf' : Bytes} {file file' : List UInt8} {skipped itemsRead n : Nat} {calls : List LogCall} {next : Next}

theorem readIteration_none (h : findMagic buf 0 file = (skipped, none)) :
    readIteration buf file itemsRead = ([.noMagic skipped], .stop none itemsRead) := by
  rw [readIteration, h]

theorem readIteration_some (h : findMagic buf 0 file = (skipped, some (buf', file')))
    (hitem : readItem buf' (lengthAt buf' skipped) file' itemsRead = (calls, next)) :
    readIteration buf file itemsRead = ((if skipped > 0 then [.skipped skipped] else []) ++ calls, next) := by
  rw [readIteration, h]
  simp only [hitem]

theorem readIteration_lt (h : readIteration buf file itemsRead = (calls, .header buf' file' n)) :
    file'.length < file.length := by
  rcases hfound : findMagic buf 0 file with ⟨skipped, _ | ⟨buf₁, rest⟩⟩
  · rw [readIteration_none hfound] at h
    cases h
  · rcases hitem : readItem buf₁ (lengthAt buf₁ skipped) rest itemsRead with ⟨calls', next⟩
    rw [readIteration_some hfound hitem] at h
    cases h
    exact Nat.lt_of_lt_of_le (readItem_lt hitem) (findMagic_le hfound)

end

/-! ### The whole file -/

/-- The message after the loop. -/
def close (thrown : Option Throwable) (itemsRead : Nat) : Reading :=
  { calls := if thrown = none then [.rereadLog itemsRead] else [], thrown := thrown }

def readloop (buf : Bytes) (file : List UInt8) (itemsRead : Nat) : Reading :=
  match _h : readIteration buf file itemsRead with
  | (calls, .stop thrown n) => (close thrown n).after calls
  | (calls, .header buf' file' n) => (readloop buf' file' n).after calls
termination_by file.length
decreasing_by exact readIteration_lt _h

/-- The loop with the header that stands next in the file. -/
def Next.reading : Next → Reading
  | .stop thrown n => close thrown n
  | .header buf file n => readloop buf file n

def readCacheContents (file : List UInt8) : Reading := (nextHeader (fun _ => 0) 0 file 0).reading

end AllInSafe.Log
