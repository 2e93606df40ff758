import AllInSafe.Log.Lemmas.Decode
import AllInSafe.Log.Lemmas.Scan

/-!
# Reading records

What the scan does with a record that has been written whole, wherever it stands in the file.
-/

namespace AllInSafe.Log
open AllInSafe.Library

/-! ## The content -/

section

variable {file buf2 : List UInt8} {n : Nat}

/-- The byte that an item begins or goes on with, once it is unescaped. -/
def store (n : Nat) (buf2 : List UInt8) (b : UInt8) (file : List UInt8) : Content :=
  if buf2.length < bufLength then readContent n (buf2 ++ [b]) file else .overrun

theorem readContent_plain {b : UInt8} (hmagic : b ≠ MAGIC_BYTE) (hescape : b ≠ MAGIC_BYTE + 1) :
    readContent (n + 1) buf2 (b :: file) = store n buf2 b file := by
  rw [readContent, readByte]
  dsimp only
  rw [if_neg hmagic, if_neg hescape]
  rfl

theorem readContent_magic :
    readContent (n + 1) buf2 (MAGIC_BYTE :: file) = .aborted (.unexpectedMagic buf2.length) file := by
  rw [readContent, readByte]
  dsimp only
  rw [if_pos rfl]

theorem readContent_escape (b : UInt8) : readContent (n + 1) buf2 ((MAGIC_BYTE + 1) :: b :: file) =
    if b = 0 then store n buf2 MAGIC_BYTE file
    else if b = 1 then store n buf2 (MAGIC_BYTE + 1) file
    else .aborted (.badEscape b) file := by
  rw [readContent, readByte]
  dsimp only
  rw [if_neg (by decide), if_pos rfl, readByte]
  rfl

theorem readContent_escapeByte (b : UInt8) :
    readContent (n + 1) buf2 (escapeByte b ++ file) = store n buf2 b file := by
  rw [escapeByte]
  split
  case isTrue h =>
      rcases h with rfl | rfl
      · exact readContent_escape 0
      · exact readContent_escape 1
  case isFalse h =>
      rw [not_or] at h
      exact readContent_plain h.1 h.2

/-- An item is unescaped to the bytes that were written. -/
theorem readContent_escaped (bytes : List UInt8) (h : buf2.length + bytes.length ≤ bufLength) :
    readContent bytes.length buf2 (bytes.flatMap escapeByte ++ file) = .complete (buf2 ++ bytes) file := by
  induction bytes generalizing buf2 with
  | nil => rw [List.append_nil]; rfl
  | cons b bytes ih =>
      rw [List.length_cons] at h ⊢
      rw [List.flatMap_cons, List.append_assoc, readContent_escapeByte, store, if_pos (by omega), ih, List.append_assoc]
      · rfl
      · rw [List.length_append, List.length_singleton]
        omega

end

/-! ## The magic byte -/

theorem locate_append {garbage found : List UInt8} (hgarbage : MAGIC_BYTE ∉ garbage) (hfound : 4 ≤ found.length)
    (skipped : Nat) (hbound : skipped + garbage.length + 10 ≤ bufLength) :
    locate skipped (garbage ++ MAGIC_BYTE :: found) = (skipped + garbage.length, some found) := by
  induction garbage generalizing skipped with
  | nil => rw [List.nil_append, locate, if_pos rfl]; rfl
  | cons b garbage ih =>
      rw [List.mem_cons, not_or] at hgarbage
      rw [List.length_cons] at hbound ⊢
      rw [List.cons_append, locate, if_neg (Ne.symm hgarbage.1), if_neg, ih hgarbage.2 (skipped + 1) (by omega)]
      · rw [Nat.add_right_comm, Nat.add_assoc]
      · rw [List.length_append, List.length_cons]
        omega

/-! ## Records -/

/-- The first bytes of a record, as they follow the magic byte. -/
def lengthBytes (bytes : List UInt8) : List UInt8 := BigEndian.bytes 4 (BitVec.ofNat 32 bytes.length).toNat

section

variable (bytes file : List UInt8)

theorem length_lengthBytes : (lengthBytes bytes).length = 4 := BigEndian.length_bytes 4 _

theorem writeEscapedBytes_append : writeEscapedBytes bytes ++ file =
    MAGIC_BYTE :: (lengthBytes bytes ++ (bytes.flatMap escapeByte ++ file)) := by
  simp [writeEscapedBytes, lengthBytes]

theorem lengthOf_lengthBytes : lengthOf (lengthBytes bytes ++ file) = BitVec.ofNat 32 bytes.length ∧
    (lengthBytes bytes ++ file).drop 4 = file := by
  obtain ⟨hlength, hdrop⟩ := lengthOf_append (lengthBytes bytes) file (length_lengthBytes bytes)
  refine ⟨?_, hdrop⟩
  rw [hlength, lengthBytes, BigEndian.value_bytes_of_lt (BitVec.isLt _), BitVec.ofNat_toNat, BitVec.setWidth_eq]

theorem locate_record : locate 0 (MAGIC_BYTE :: (lengthBytes bytes ++ (bytes.flatMap escapeByte ++ file))) =
    (0, some (lengthBytes bytes ++ (bytes.flatMap escapeByte ++ file))) := by
  rw [locate, if_pos rfl]

theorem four_le_record : 4 ≤ (lengthBytes bytes ++ (bytes.flatMap escapeByte ++ file)).length := by
  simp [lengthBytes]

variable {bytes}

theorem readContent_record (h : bytes.length ≤ bufLength) :
    readContent (lengthOf (lengthBytes bytes ++ (bytes.flatMap escapeByte ++ file))).toInt.toNat []
        ((lengthBytes bytes ++ (bytes.flatMap escapeByte ++ file)).drop 4) = .complete bytes file := by
  obtain ⟨hlength, hdrop⟩ := lengthOf_lengthBytes bytes (bytes.flatMap escapeByte ++ file)
  have hbound : bytes.length < 2 ^ 31 := Nat.lt_of_le_of_lt h (by decide)
  have hempty : ([] : List UInt8).length + bytes.length ≤ bufLength := by simpa using h
  rw [hlength, hdrop, toInt_ofNat hbound, Int.toNat_natCast, readContent_escaped bytes hempty, List.nil_append]

/-- A whole record is one step of the scan. -/
theorem scan_record {call : LogCall} {itemsRead : Nat} (h : bytes.length ≤ bufLength)
    (hfew : itemsRead ≤ 2 * MAXLOGENTRIES)
    (hcall : restoreLogItem bytes (BitVec.ofNat 32 bytes.length) = .ok call) :
    scan itemsRead (writeEscapedBytes bytes ++ file) = (scan (itemsRead + 1) file).after [call] := by
  have hlength := (lengthOf_lengthBytes bytes (bytes.flatMap escapeByte ++ file)).1
  rw [← hlength] at hcall
  rw [writeEscapedBytes_append, scan_eq hfew
    (scanStep_some (four_le_record bytes file) (locate_record bytes file)
      (scanItem_restored (readContent_record file h) hcall))]
  rfl

end

/-! ## Items -/

namespace LogItem

/-- An item that the encoder writes and the constructor reads. -/
structure Encodable (li : LogItem) : Prop where
  level : li.mLevel ≠ none
  args : li.args.length ≤ 30
  bytes : ∃ bytes, li.getMarschaledBytes = .ok bytes

/-- The call with which the reader answers the record of an item. -/
def call (li : LogItem) : LogCall :=
  if li.restored.verify then .cached li.restored else .unverified li.wire (BitVec.ofNat 32 li.wire.length)

variable {li : LogItem}

theorem Encodable.wire (h : li.Encodable) : li.getMarschaledBytes = .ok li.wire ∧ li.wire.length ≤ bufLength := by
  obtain ⟨level, hlevel⟩ := Option.ne_none_iff_exists'.mp h.level
  obtain ⟨bytes, hbytes⟩ := h.bytes
  obtain ⟨rfl, hlength⟩ := wire_of_getMarschaledBytes hlevel h.args hbytes
  exact ⟨hbytes, hlength⟩

theorem Encodable.restore (h : li.Encodable) :
    restoreLogItem li.wire (BitVec.ofNat 32 li.wire.length) = .ok li.call := by
  obtain ⟨level, hlevel⟩ := Option.ne_none_iff_exists'.mp h.level
  have hlength : li.wire.length < 2 ^ 31 := Nat.lt_of_le_of_lt h.wire.2 (by decide)
  rw [restoreLogItem, toInt_ofNat hlength, ofBytes_wire hlevel h.args]
  rfl

end LogItem

/-- The file with the records of these items. -/
def records (items : List LogItem) : List UInt8 := items.flatMap fun li => writeEscapedBytes li.wire

theorem records_cons (li : LogItem) (items : List LogItem) :
    records (li :: items) = writeEscapedBytes li.wire ++ records items := List.flatMap_cons

section

variable {items : List LogItem}

theorem foldlM_writeLogItemToDisk (h : ∀ li ∈ items, li.Encodable) (file : List UInt8) :
    items.foldlM writeLogItemToDisk file = .ok (file ++ records items) := by
  induction items generalizing file with
  | nil => rw [records, List.flatMap_nil, List.append_nil]; rfl
  | cons li items ih =>
      rw [List.forall_mem_cons] at h
      rw [List.foldlM_cons, writeLogItemToDisk, h.1.wire.1]
      show items.foldlM writeLogItemToDisk (file ++ writeEscapedBytes li.wire) = _
      rw [ih h.2, records_cons, List.append_assoc]

/-- Records that nothing precedes but records. -/
theorem scan_records (h : ∀ li ∈ items, li.Encodable) (itemsRead : Nat)
    (hfew : itemsRead + items.length ≤ 2 * MAXLOGENTRIES + 1) (file : List UInt8) :
    scan itemsRead (records items ++ file) =
      (scan (itemsRead + items.length) file).after (items.map LogItem.call) := by
  induction items generalizing itemsRead with
  | nil => rfl
  | cons li items ih =>
      rw [List.forall_mem_cons] at h
      rw [List.length_cons] at hfew ⊢
      rw [records_cons, List.append_assoc, scan_record _ h.1.wire.2 (by omega) h.1.restore,
        ih h.2 _ (by omega), Nat.add_assoc, Nat.add_comm 1]
      rfl

theorem scan_nil {itemsRead : Nat} (h : itemsRead ≤ 2 * MAXLOGENTRIES) : scan itemsRead [] = close none itemsRead := by
  rw [scan_eq h (scanStep_short (by decide))]
  rfl

/-! ## The log buffer -/

/-- Cached lines go to the front. -/
theorem foldl_newLogItem {logbuffer : List LogItem}
    (h : items.length + logbuffer.length ≤ MAXLOGENTRIES + MAXLOGENTRIES / 2) :
    items.foldl (fun logbuffer li => newLogItem li true logbuffer) logbuffer = items.reverse ++ logbuffer := by
  induction items generalizing logbuffer with
  | nil => rfl
  | cons li items ih =>
      rw [List.length_cons] at h
      have hnew : newLogItem li true logbuffer = li :: logbuffer := by
        rw [newLogItem, if_pos rfl, trim, if_neg]
        rw [List.length_cons]
        omega
      rw [List.foldl_cons, hnew, ih (by rw [List.length_cons]; omega), List.reverse_cons, List.append_assoc]
      rfl

end

end AllInSafe.Log
