import AllInSafe.Log.Lemmas.Decode
import AllInSafe.Log.Pipe

/-!
# Reading what the pipe was given
-/

namespace AllInSafe.Log
open AllInSafe.Library Buffer

section

variable {rest : List UInt8} {li : LogItem} {level : LogLevel} {bytes : List UInt8}

/-! ## Lengths -/

theorem readShort_writeShort {n : Nat} (h : n < 2 ^ 16) :
    readShort (writeShort n ++ rest) = .ok (BitVec.ofNat 16 n, rest) := by
  have hnat : (BitVec.ofNat 16 n).toNat = n := by
    rw [BitVec.toNat_ofNat]
    exact Nat.mod_eq_of_lt h
  have hlength : (BigEndian.bytes 2 n).length = 2 := BigEndian.length_bytes 2 n
  rw [readShort, writeShort, hnat, if_pos (by simp), List.take_left' hlength, List.drop_left' hlength,
    BigEndian.value_bytes_of_lt h]

theorem toInt_ofNat_short {n : Nat} (h : n < 2 ^ 15) : (BitVec.ofNat 16 n).toInt = n := by
  have hnat : (BitVec.ofNat 16 n).toNat = n := by
    rw [BitVec.toNat_ofNat]
    exact Nat.mod_eq_of_lt (by omega)
  rw [BitVec.toInt_eq_toNat_of_lt (by omega), hnat]

/-! ## Items -/

theorem readLog_append (h : bytes.length < 2 ^ 15) (hli : LogItem.ofBytes bytes bytes.length = .ok li) :
    readLog (BitVec.ofNat 16 bytes.length) (bytes ++ rest) = .ok (li, rest) := by
  rw [readLog, readFully, toInt_ofNat_short h, if_neg (by omega), if_pos (by rw [List.length_append]; omega), Int.toNat_natCast,
    List.take_left, List.drop_left]
  simp only [bind, Except.bind, hli]
  rfl

theorem readLogs_end (rest : List UInt8) : readLogs (writeShort 0x7fff ++ rest) = ([], .ok rest) := by
  rw [readLogs]
  split
  case h_1 e he =>
      rw [readShort_writeShort (by decide)] at he
      cases he
  case h_2 len next hshort =>
      rw [readShort_writeShort (by decide)] at hshort
      cases hshort
      exact if_pos (by decide)

theorem readLogs_item (h : bytes.length ≤ capacity) (hli : LogItem.ofBytes bytes bytes.length = .ok li) :
    readLogs (writeShort bytes.length ++ (bytes ++ rest)) = (li :: (readLogs rest).1, (readLogs rest).2) := by
  rw [capacity] at h
  have hread : readLog (BitVec.ofNat 16 bytes.length) (bytes ++ rest) = .ok (li, rest) :=
    readLog_append (by omega) hli
  rw [readLogs]
  split
  case h_1 e he =>
      rw [readShort_writeShort (by omega)] at he
      cases he
  case h_2 len next hshort =>
      rw [readShort_writeShort (by omega)] at hshort
      cases hshort
      rw [if_neg]
      · split
        case h_1 e he => rw [hread] at he; cases he
        case h_2 logitem rest' hok => rw [hread] at hok; cases hok; rfl
      · intro hend
        have htoInt := congrArg BitVec.toInt hend
        rw [toInt_ofNat_short (by omega)] at htoInt
        have : (bytes.length : Int) = 0x7fff := htoInt
        omega

end

/-! ## Log buffers -/

/-- The items of the log buffer, each behind its length. -/
def framed (logbuffer : List LogItem) : List UInt8 :=
  logbuffer.flatMap fun li => writeShort li.wire.length ++ li.wire

section

variable {logbuffer : List LogItem}

theorem foldlM_pushLog (h : ∀ li ∈ logbuffer, li.getMarschaledBytes = .ok li.wire) (fd : List UInt8) :
    logbuffer.foldlM pushLog fd = .ok (fd ++ framed logbuffer) := by
  induction logbuffer generalizing fd with
  | nil => rw [framed, List.flatMap_nil, List.append_nil]; rfl
  | cons li logbuffer ih =>
      rw [List.forall_mem_cons] at h
      rw [List.foldlM_cons, pushLog, h.1]
      change logbuffer.foldlM pushLog (fd ++ writeShort li.wire.length ++ li.wire) = _
      rw [ih h.2, framed, framed, List.flatMap_cons, List.append_assoc, List.append_assoc, List.append_assoc]

theorem readLogs_framed
    (h : ∀ li ∈ logbuffer, li.wire.length ≤ capacity ∧ LogItem.ofBytes li.wire li.wire.length = .ok li.restored)
    (rest : List UInt8) :
    readLogs (framed logbuffer ++ writeShort 0x7fff ++ rest) = (logbuffer.map LogItem.restored, .ok rest) := by
  induction logbuffer with
  | nil => exact readLogs_end rest
  | cons li logbuffer ih =>
      rw [List.forall_mem_cons] at h
      rw [framed, List.flatMap_cons, ← framed, List.append_assoc, List.append_assoc, List.append_assoc,
        readLogs_item h.1.1 h.1.2, ← List.append_assoc, ih h.2]
      rfl

end

end AllInSafe.Log
