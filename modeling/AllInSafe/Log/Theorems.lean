import AllInSafe.Log.Lemmas.Limits
import AllInSafe.Log.Lemmas.Pipe
import AllInSafe.Library.Outcome
import Mathlib.Data.List.Forall2

/-!
# Log items between processes and restarts
-/

namespace AllInSafe.Log
open AllInSafe.Library Buffer

/-! ## Encoding and decoding -/

/-- An item without truncated strings comes back as it was, or does not fit into the buffer. -/
theorem LogItem.ofBytes_getMarschaledBytes {li : LogItem} {level : LogLevel} (h : li.mLevel = some level)
    (hlength : li.args.length ≤ 30) (hstandard : li.Standard) (hlimits : li.Untruncated) :
    (li.wire.length ≤ capacity →
      ∃ bytes, li.getMarschaledBytes = .ok bytes ∧ ofBytes bytes bytes.length = .ok li.canonical) ∧
    (capacity < li.wire.length → li.getMarschaledBytes = .error .bufferOverflow) := by
  have hwhole := getMarschaledBytes_room h hlength (hlimits.2.room hstandard)
  constructor
  · intro hfits
    rw [if_pos hfits] at hwhole
    refine ⟨li.wire, hwhole, ?_⟩
    rw [ofBytes_wire h hlength, restored_eq_canonical hlimits hstandard hfits]
  · intro hlong
    rw [hwhole, if_neg (by omega)]

def connectedItem : LogItem :=
  { mMessage := some "Verbindung überprüft", mArgs := some [.string "tun0", .int 5, .null, .long (-1)], logtime := 17 }

theorem LogItem.ofBytes_getMarschaledBytes_connected : ∃ bytes, connectedItem.getMarschaledBytes = .ok bytes ∧
    ofBytes bytes bytes.length = .ok connectedItem.canonical := by
  have hlevel : connectedItem.mLevel = some .INFO := rfl
  refine (ofBytes_getMarschaledBytes hlevel (by decide) ?_ ⟨?_, by decide⟩).1 (by decide)
  · intro str hmem
    simp [args, connectedItem] at hmem
  · intro message hmessage
    cases hmessage
    decide

/-- 21 bytes of fields, a message of 8192 bytes, an argument of 8033 bytes and 13 numbers. -/
def overfullItem : LogItem :=
  { mMessage := some (List.replicate 8192 'a')
    mArgs := some (.string (List.replicate 8033 'a') :: List.replicate 13 (.long 0))
    logtime := 0 }

theorem argsStart_overfull : overfullItem.argsStart = 8221 := by
  rw [LogItem.argsStart, overfullItem, length_wireMessage_replicate (by decide)]
  rfl

theorem wireArg_overfull : (wireArg 8221 (.string (List.replicate 8033 'a'))).length = 8039 := by
  rw [wireArg, length_putText, length_shortened_replicate]
  rfl

theorem LogItem.getMarschaledBytes_overfull : ¬ ∀ (li : LogItem) (level : LogLevel), li.mLevel = some level →
    li.args.length ≤ 30 → li.Standard → li.Untruncated →
    ∃ bytes, li.getMarschaledBytes = .ok bytes ∧ ofBytes bytes bytes.length = .ok li.canonical := by
  intro hclaim
  have hargs : overfullItem.args = .string (List.replicate 8033 'a') :: List.replicate 13 (.long 0) := rfl
  have hlength : overfullItem.args.length ≤ 30 := by
    rw [hargs, List.length_cons, List.length_replicate]
    decide
  have hstandard : overfullItem.Standard := by
    intro str hmem
    rw [hargs] at hmem
    rcases List.mem_cons.mp hmem with hother | hother
    · cases hother
    · cases List.eq_of_mem_replicate hother
  have hlimits : overfullItem.Untruncated := by
    constructor
    · intro message hmessage
      cases hmessage
      exact Nat.le_of_eq (length_encode_replicate _)
    · rw [argsStart_overfull, hargs]
      refine ⟨fun _ => ?_, withinLimits_longs _ _⟩
      rw [length_encode_replicate]
      decide
  have hlong : capacity < overfullItem.wire.length := by
    rw [wire, List.length_append, length_beforeArgs, argsStart_overfull, hargs, wireArgs, List.length_append,
      wireArg_overfull, wireArgs_longs]
    decide
  obtain ⟨bytes, hok, _⟩ := hclaim overfullItem .INFO rfl hlength hstandard hlimits
  rw [(ofBytes_getMarschaledBytes rfl hlength hstandard hlimits).2 hlong] at hok
  cases hok

/-! ## The outcome of encoding -/

/-- The bytes are accepted by the constructor, or the handlers know the exception, and no limit is negative. -/
theorem LogItem.getMarschaledBytes_total_iff {li : LogItem} {level : LogLevel} (h : li.mLevel = some level)
    (hlength : li.args.length ≤ 30) :
    (Outcome (fun bytes => ∃ item, ofBytes bytes bytes.length = .ok item)
        (fun e => e = .bufferOverflow ∨ e = .unsupportedEncoding) li.getMarschaledBytes ∧
      ∀ bb, li.MarschalCall bb → 0 ≤ maxStringLength bb) ↔ li.Room := by
  constructor
  · rintro ⟨_, hlimits⟩
    exact room_of_limits h hlength hlimits
  · intro hroom
    refine ⟨?_, fun bb hcall => limit_of_room h hlength hroom hcall⟩
    rw [getMarschaledBytes_room h hlength hroom]
    split
    case isTrue => exact .ok ⟨_, ofBytes_wire h hlength⟩
    case isFalse => exact .error (.inl rfl)

theorem LogItem.getMarschaledBytes_total_iff_connected :
    Outcome (fun bytes => ∃ item, ofBytes bytes bytes.length = .ok item)
        (fun e => e = .bufferOverflow ∨ e = .unsupportedEncoding) connectedItem.getMarschaledBytes ∧
      ∀ bb, connectedItem.MarschalCall bb → 0 ≤ maxStringLength bb := by
  have hroom : connectedItem.Room := by
    rw [Room]
    decide
  have hlevel : connectedItem.mLevel = some .INFO := rfl
  exact (getMarschaledBytes_total_iff hlevel (by decide)).mpr hroom

/-- A message and an argument that are both cut, and an empty argument. -/
def clashingItem : LogItem :=
  { mMessage := some (List.replicate 9000 'a')
    mArgs := some [.string (List.replicate 9000 'a'), .string []]
    logtime := 0 }

theorem exists_indexOutOfBounds : ∃ li : LogItem, li.mLevel = some .INFO ∧ li.args.length ≤ 30 ∧
    li.getMarschaledBytes = .error .indexOutOfBounds := by
  have hargs : clashingItem.args = [.string (List.replicate 9000 'a')] ++ [.string []] := rfl
  have hlength : clashingItem.args.length ≤ 30 := by
    rw [hargs]
    exact (by decide : 2 ≤ 30)
  have hstart : clashingItem.argsStart = 8234 := by
    rw [LogItem.argsStart, clashingItem, length_wireMessage_replicate (by decide)]
    rfl
  have hfirst : (wireArgs 8234 [.string (List.replicate 9000 'a')]).length = 8039 := by
    rw [wireArgs, List.length_append, wireArg, length_putText, length_shortened_replicate]
    rfl
  have hpre : RoomForStrings clashingItem.argsStart [.string (List.replicate 9000 'a')] := by
    rw [hstart]
    exact ⟨fun _ => .inl (by decide), trivial⟩
  have hclash : Clashes
      (clashingItem.argsStart + (wireArgs clashingItem.argsStart [.string (List.replicate 9000 'a')]).length)
      (.string []) := by
    rw [hstart, hfirst]
    decide
  exact ⟨clashingItem, rfl, hlength, LogItem.getMarschaledBytes_clash rfl hlength hargs hpre hclash⟩

theorem LogItem.getMarschaledBytes_negative : ¬ ∀ (li : LogItem) (level : LogLevel), li.mLevel = some level →
    li.args.length ≤ 30 →
    Outcome (fun bytes => ∃ item, ofBytes bytes bytes.length = .ok item)
      (fun e => e = .bufferOverflow ∨ e = .unsupportedEncoding) li.getMarschaledBytes := by
  intro hclaim
  obtain ⟨li, hlevel, hlength, herror⟩ := exists_indexOutOfBounds
  rcases (hclaim li .INFO hlevel hlength).throws herror with hthrown | hthrown
  · cases hthrown
  · cases hthrown

/-! ## The pipe -/

/-- The reader gets the items of the log buffer one by one and stops behind the end mark. -/
theorem readLogs_pushLogs {logbuffer : List LogItem} (hlevel : ∀ li ∈ logbuffer, li.mLevel ≠ none)
    (hlength : ∀ li ∈ logbuffer, li.args.length ≤ 30)
    (hencoded : ∀ li ∈ logbuffer, ∃ bytes, li.getMarschaledBytes = .ok bytes) :
    ∃ stream items, pushLogs logbuffer = .ok stream ∧
      (∀ rest, readLogs (stream ++ rest) = (items, .ok rest)) ∧
      List.Forall₂ (fun li item => ∃ bytes, li.getMarschaledBytes = .ok bytes ∧
        LogItem.ofBytes bytes bytes.length = .ok item) logbuffer items ∧
      ∀ li ∈ logbuffer, ∀ bytes, li.getMarschaledBytes = .ok bytes →
        (BitVec.ofNat 16 bytes.length).toInt = bytes.length ∧ bytes.length ≠ 0x7fff := by
  have hwire : ∀ li ∈ logbuffer, li.getMarschaledBytes = .ok li.wire ∧ li.wire.length ≤ capacity ∧
      LogItem.ofBytes li.wire li.wire.length = .ok li.restored := by
    intro li hli
    obtain ⟨level, hsome⟩ := Option.ne_none_iff_exists'.mp (hlevel li hli)
    obtain ⟨bytes, hok⟩ := hencoded li hli
    obtain ⟨rfl, hfits⟩ := LogItem.wire_of_getMarschaledBytes hsome (hlength li hli) hok
    exact ⟨hok, hfits, LogItem.ofBytes_wire hsome (hlength li hli)⟩
  refine ⟨framed logbuffer ++ writeShort 0x7fff, logbuffer.map LogItem.restored, ?_, ?_, ?_, ?_⟩
  · rw [pushLogs, foldlM_pushLog (fun li hli => (hwire li hli).1)]
    rfl
  · exact readLogs_framed fun li hli => (hwire li hli).2
  · rw [List.forall₂_map_right_iff, List.forall₂_same]
    exact fun li hli => ⟨li.wire, (hwire li hli).1, (hwire li hli).2.2⟩
  · intro li hli bytes hok
    obtain ⟨hok', hfits, _⟩ := hwire li hli
    rw [hok'] at hok
    cases hok
    rw [capacity] at hfits
    exact ⟨toInt_ofNat_short (by omega), by omega⟩

theorem connectedItem_encoded : ∃ bytes, connectedItem.getMarschaledBytes = .ok bytes := by
  have hroom : connectedItem.Room := by
    rw [LogItem.Room]
    decide
  have hlevel : connectedItem.mLevel = some .INFO := rfl
  exact ⟨_, (LogItem.getMarschaledBytes_room hlevel (by decide) hroom).trans (if_pos (by decide))⟩

theorem readLogs_pushLogs_connected :
    ∃ stream items, pushLogs [connectedItem, connectedItem] = .ok stream ∧
      (∀ rest, readLogs (stream ++ rest) = (items, .ok rest)) ∧
      List.Forall₂ (fun li item => ∃ bytes, li.getMarschaledBytes = .ok bytes ∧
        LogItem.ofBytes bytes bytes.length = .ok item) [connectedItem, connectedItem] items ∧
      ∀ li ∈ [connectedItem, connectedItem], ∀ bytes, li.getMarschaledBytes = .ok bytes →
        (BitVec.ofNat 16 bytes.length).toInt = bytes.length ∧ bytes.length ≠ 0x7fff := by
  have hmem : ∀ li ∈ [connectedItem, connectedItem], li = connectedItem := by simp
  refine readLogs_pushLogs (fun li hli => ?_) (fun li hli => ?_) fun li hli => ?_
  · rw [hmem li hli]; decide
  · rw [hmem li hli]; decide
  · rw [hmem li hli]; exact connectedItem_encoded

end AllInSafe.Log
