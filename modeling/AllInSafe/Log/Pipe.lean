import AllInSafe.Log.LogItem

/-!
# The log pipe between the two processes

The thread `pushLogs` of `OpenVPNStatusService` and the loop of `onServiceConnected` of `StatusListener`.
-/

namespace AllInSafe.Log
open AllInSafe.Library

def writeShort (v : Nat) : List UInt8 := BigEndian.bytes 2 (BitVec.ofNat 16 v).toNat

/-- One iteration for an item of the log buffer. -/
def pushLog (fd : List UInt8) (logItem : LogItem) : Except Throwable (List UInt8) := do
  let bytes ← logItem.getMarschaledBytes
  return fd ++ writeShort bytes.length ++ bytes

/-- What is written into the pipe, up to the end mark. -/
def pushLogs (logbuffer : List LogItem) : Except Throwable (List UInt8) := do
  return (← logbuffer.foldlM pushLog []) ++ writeShort 0x7fff

def readShort (fd : List UInt8) : Except Throwable (BitVec 16 × List UInt8) :=
  if 2 ≤ fd.length then .ok (BitVec.ofNat 16 (BigEndian.value (fd.take 2)), fd.drop 2) else .error .endOfFile

def readFully (len : Int) (fd : List UInt8) : Except Throwable (List UInt8 × List UInt8) :=
  if len < 0 then .error .indexOutOfBounds
  else if len ≤ fd.length then .ok (fd.take len.toNat, fd.drop len.toNat)
  else .error .endOfFile

/-- The item with the length `len`, and the rest of the stream. -/
def readLog (len : BitVec 16) (fd : List UInt8) : Except Throwable (LogItem × List UInt8) := do
  let (buf, fd) ← readFully len.toInt fd
  return (← LogItem.ofBytes buf len.toInt, fd)

theorem readLog_length {len : BitVec 16} {fd rest : List UInt8} {li : LogItem} (h : readLog len fd = .ok (li, rest)) :
    rest.length ≤ fd.length := by
  rw [readLog, readFully] at h
  split at h
  · cases h
  · split at h
    · simp only [bind, Except.bind] at h
      split at h
      · cases h
      · cases h
        simp
    · cases h

theorem readShort_length {fd rest : List UInt8} {len : BitVec 16} (h : readShort fd = .ok (len, rest)) :
    rest.length < fd.length := by
  rw [readShort] at h
  split at h
  · cases h
    rw [List.length_drop]
    omega
  · cases h

/-- The items passed to `newLogItem`, and what is left of the stream at the end mark or the exception. -/
def readLogs (fd : List UInt8) : List LogItem × Except Throwable (List UInt8) :=
  match hshort : readShort fd with
  | .error e => ([], .error e)
  | .ok (len, next) =>
      if len = 0x7fff then ([], .ok next)
      else match hread : readLog len next with
        | .error e => ([], .error e)
        | .ok (logitem, rest) =>
            have := Nat.lt_of_le_of_lt (readLog_length hread) (readShort_length hshort)
            (logitem :: (readLogs rest).1, (readLogs rest).2)
termination_by fd.length

end AllInSafe.Log
