import AllInSafe.Log.LogFileHandler

/-!
# Reading the cache without the buffer

The reader as a function of the bytes that are left, the ones of the header among them. After an aborted item the
first byte of the old header stands in front of the rest of the file.
-/

namespace AllInSafe.Log
open AllInSafe.Library

/-- The bytes behind the first magic byte that a whole length follows; none where the search ends. -/
def locate (skipped : Nat) : List UInt8 → Nat × Option (List UInt8)
  | [] => (skipped, none)
  | b :: bytes =>
      if b = MAGIC_BYTE then (skipped, some bytes)
      else if bytes.length < 5 ∨ skipped + 1 + 10 > bufLength then (skipped + 1, none)
      else locate (skipped + 1) bytes

def lengthOf (bytes : List UInt8) : BitVec 32 := BitVec.ofNat 32 (BigEndian.value (bytes.take 4))

/-- What follows an item: the reading ends, or goes on with these bytes. -/
inductive Rest
  | stop (thrown : Option Throwable)
  | goOn (read : Nat) (bytes : List UInt8)

def scanItem (first : UInt8) (found : List UInt8) : List LogCall × Rest :=
  match readContent (lengthOf found).toInt.toNat [] (found.drop 4) with
  | .overrun => ([], .stop (some .indexOutOfBounds))
  | .aborted call file => ([call], .goOn 0 (first :: file))
  | .complete buf2 file =>
      match restoreLogItem buf2 (lengthOf found) with
      | .error e => ([], .stop (some e))
      | .ok call => ([call], .goOn 1 file)

def scanStep : List UInt8 → List LogCall × Rest
  | [] => ([], .stop none)
  | first :: bytes =>
      if bytes.length < 4 then ([], .stop none)
      else
        match locate 0 (first :: bytes) with
        | (skipped, none) => ([.noMagic skipped], .stop none)
        | (skipped, some found) =>
            let item := scanItem first found
            ((if skipped > 0 then [.skipped skipped] else []) ++ item.1, item.2)

section

variable {found bytes rest buf2 file : List UInt8} {first : UInt8} {skipped n : Nat} {calls : List LogCall}
  {next : Rest}

theorem scanItem_overrun (h : readContent (lengthOf found).toInt.toNat [] (found.drop 4) = .overrun) :
    scanItem first found = ([], .stop (some .indexOutOfBounds)) := by
  rw [scanItem, h]

theorem scanItem_aborted {call : LogCall}
    (h : readContent (lengthOf found).toInt.toNat [] (found.drop 4) = .aborted call file) :
    scanItem first found = ([call], .goOn 0 (first :: file)) := by
  rw [scanItem, h]

theorem scanItem_refused {e : Throwable}
    (h : readContent (lengthOf found).toInt.toNat [] (found.drop 4) = .complete buf2 file)
    (he : restoreLogItem buf2 (lengthOf found) = .error e) : scanItem first found = ([], .stop (some e)) := by
  rw [scanItem, h]
  simp only [he]

theorem scanItem_restored {call : LogCall}
    (h : readContent (lengthOf found).toInt.toNat [] (found.drop 4) = .complete buf2 file)
    (hcall : restoreLogItem buf2 (lengthOf found) = .ok call) : scanItem first found = ([call], .goOn 1 file) := by
  rw [scanItem, h]
  simp only [hcall]

theorem scanStep_short (h : bytes.length < 5) : scanStep bytes = ([], .stop none) := by
  cases bytes with
  | nil => rfl
  | cons first bytes => rw [scanStep, if_pos (Nat.lt_of_succ_lt_succ h)]

theorem scanStep_none (hlength : 4 ≤ bytes.length) (h : locate 0 (first :: bytes) = (skipped, none)) :
    scanStep (first :: bytes) = ([.noMagic skipped], .stop none) := by
  rw [scanStep, if_neg (by omega), h]

theorem scanStep_some (hlength : 4 ≤ bytes.length) (h : locate 0 (first :: bytes) = (skipped, some found))
    (hitem : scanItem first found = (calls, next)) :
    scanStep (first :: bytes) = ((if skipped > 0 then [.skipped skipped] else []) ++ calls, next) := by
  rw [scanStep, if_neg (by omega), h]
  simp only [hitem]

theorem locate_length (h : locate skipped bytes = (n, some found)) : found.length < bytes.length := by
  induction bytes generalizing skipped with
  | nil => cases h
  | cons b bytes ih =>
      rw [locate] at h
      split at h
      case isTrue => cases h; exact Nat.lt_succ_self _
      split at h
      case isTrue => cases h
      case isFalse => exact Nat.lt_succ_of_lt (ih h)

/-- A magic byte has been found where at least a whole length follows. -/
theorem four_le_of_locate (hlength : 5 ≤ bytes.length) (h : locate skipped bytes = (n, some found)) :
    4 ≤ found.length := by
  induction bytes generalizing skipped with
  | nil => cases h
  | cons b bytes ih =>
      rw [locate] at h
      split at h
      case isTrue => cases h; exact Nat.le_of_succ_le_succ hlength
      split at h
      case isTrue => cases h
      case isFalse hgo => exact ih (by omega) h

theorem scanItem_length (hlength : 4 ≤ found.length) (h : scanItem first found = (calls, .goOn n rest)) :
    rest.length < found.length := by
  have hle := readContent_le (lengthOf found).toInt.toNat [] (found.drop 4)
  rw [List.length_drop] at hle
  cases hcontent : readContent (lengthOf found).toInt.toNat [] (found.drop 4) with
  | overrun => rw [scanItem_overrun hcontent] at h; cases h
  | aborted call file =>
      rw [scanItem_aborted hcontent] at h
      rw [hcontent] at hle
      cases h
      have hfile : file.length ≤ found.length - 4 := hle
      rw [List.length_cons]
      omega
  | complete buf2 file =>
      rw [hcontent] at hle
      have hfile : file.length ≤ found.length - 4 := hle
      cases hrestored : restoreLogItem buf2 (lengthOf found) with
      | error e => rw [scanItem_refused hcontent hrestored] at h; cases h
      | ok call =>
          rw [scanItem_restored hcontent hrestored] at h
          cases h
          omega

theorem scanStep_length (h : scanStep bytes = (calls, .goOn n rest)) : rest.length < bytes.length := by
  rcases Nat.lt_or_ge bytes.length 5 with hshort | hlength
  · rw [scanStep_short hshort] at h
    cases h
  · obtain ⟨first, tail, rfl⟩ := List.exists_cons_of_length_pos (Nat.lt_of_lt_of_le (by decide) hlength)
    have htail : 4 ≤ tail.length := Nat.le_of_succ_le_succ hlength
    rcases hfound : locate 0 (first :: tail) with ⟨skipped, _ | found⟩
    · rw [scanStep_none htail hfound] at h
      cases h
    · rcases hitem : scanItem first found with ⟨calls', next⟩
      rw [scanStep_some htail hfound hitem] at h
      cases h
      exact Nat.lt_trans (scanItem_length (four_le_of_locate hlength hfound) hitem) (locate_length hfound)

end

/-- The reading of these bytes after `itemsRead` items. -/
def scan (itemsRead : Nat) (bytes : List UInt8) : Reading :=
  if itemsRead > 2 * MAXLOGENTRIES then (close none itemsRead).after [.tooMany]
  else
    match _h : scanStep bytes with
    | (calls, .stop thrown) => (close thrown itemsRead).after calls
    | (calls, .goOn read rest) => (scan (itemsRead + read) rest).after calls
termination_by bytes.length
decreasing_by exact scanStep_length _h

end AllInSafe.Log
