import AllInSafe.Library.BigEndian
import AllInSafe.Library.Slots

/-!
# The reliability layer

`reliable.c`, the packets of one direction of a control channel and the acknowledgments. A buffer is given by the index
of its entry; `now` is the clock of the call.
-/

namespace AllInSafe.ControlChannel
open AllInSafe.Library

def RELIABLE_ACK_SIZE : Nat := 8
def RELIABLE_CAPACITY : Nat := 12
def N_ACK_RETRANSMIT : Nat := 3
def SID_SIZE : Nat := 8

abbrev packet_id_type := BitVec 32

/-! ## Packet ids -/

def subtract_pid (test base : packet_id_type) : packet_id_type := test - base

def reliable_pid_in_range1 (test base extent : packet_id_type) : Bool := subtract_pid test base < extent

def reliable_pid_in_range2 (test base extent : packet_id_type) : Bool :=
  if base + extent ≥ base then test < base + extent
  else test + 0x80000000 < base + 0x80000000 + extent

def reliable_pid_min (p1 p2 : packet_id_type) : Bool := !reliable_pid_in_range1 p1 p2 0x80000000

/-! ## Acknowledgments -/

structure ReliableAck where
  packet_id : List packet_id_type := []
  len_le : packet_id.length ≤ RELIABLE_ACK_SIZE := by decide

theorem nil_length_le : ([] : List packet_id_type).length ≤ RELIABLE_ACK_SIZE := Nat.zero_le _

structure SessionId where
  id : List UInt8
  size : id.length = SID_SIZE
  deriving DecidableEq

def session_id_defined (sid : SessionId) : Bool := sid.id ≠ List.replicate SID_SIZE 0

def session_id_read (buf : List UInt8) : Option (SessionId × List UInt8) :=
  if h : SID_SIZE ≤ buf.length then some (⟨buf.take SID_SIZE, by simp [h]⟩, buf.drop SID_SIZE) else none

def reliable_ack_empty (ack : ReliableAck) : Bool := ack.packet_id.isEmpty

def reliable_ack_packet_id_present (ack : ReliableAck) (pid : packet_id_type) : Bool := ack.packet_id.contains pid

def ReliableAck.push (ack : ReliableAck) (pid : packet_id_type) (h : ack.packet_id.length < RELIABLE_ACK_SIZE) :
    ReliableAck where
  packet_id := ack.packet_id ++ [pid]
  len_le := by simpa using h

def reliable_ack_read_packet_id (buf : List UInt8) : Option (packet_id_type × List UInt8) :=
  if 4 ≤ buf.length then some (BitVec.ofNat 32 (BigEndian.value (buf.take 4)), buf.drop 4) else none

def reliable_ack_acknowledge_packet_id (ack : ReliableAck) (pid : packet_id_type) : ReliableAck :=
  if h : !reliable_ack_packet_id_present ack pid ∧ ack.packet_id.length < RELIABLE_ACK_SIZE then ack.push pid h.2
  else ack

/-- The loop of `reliable_ack_parse`, with `count` packet ids left. -/
def parseIds : Nat → ReliableAck → List UInt8 → Option (ReliableAck × List UInt8)
  | 0, ack, buf => some (ack, buf)
  | count + 1, ack, buf =>
      match reliable_ack_read_packet_id buf with
      | none => none
      | some (pid, buf) =>
          if h : ack.packet_id.length < RELIABLE_ACK_SIZE then parseIds count (ack.push pid h) buf else none

/-- The session id is read where there is an acknowledgment. -/
def reliable_ack_parse (buf : List UInt8) : Option (ReliableAck × Option SessionId × List UInt8) :=
  match buf with
  | [] => none
  | count :: buf =>
      match parseIds count.toNat {} buf with
      | none => none
      | some (ack, buf) =>
          if count ≠ 0 then (session_id_read buf).map fun (session_id_remote, buf) => (ack, some session_id_remote, buf)
          else some (ack, none, buf)

def reliable_ack_read (buf : List UInt8) (sid : SessionId) : Option (ReliableAck × List UInt8) :=
  match reliable_ack_parse buf with
  | none => none
  | some (ack, session_id_remote, buf) =>
      if ack.packet_id.length ≥ 1 ∧ !(session_id_remote.any fun remote => session_id_defined remote && remote == sid) then
        none
      else some (ack, buf)

/-- The loop that moves the entries one to the right, until it finds the first one: the entries, and the one that falls
out at the end. -/
def moveRight (id move : packet_id_type) : List packet_id_type → List packet_id_type × Option packet_id_type
  | [] => ([], some move)
  | tmp :: ids =>
      if tmp = id then (move :: ids, none)
      else
        let (ids, out) := moveRight id tmp ids
        (move :: ids, out)

@[simp] theorem length_moveRight (id move : packet_id_type) (ids : List packet_id_type) :
    (moveRight id move ids).1.length = ids.length := by
  induction ids generalizing move with
  | nil => rfl
  | cons tmp ids ih =>
      unfold moveRight
      split_ifs <;> simp [ih]

/-- One packet id moves to the front of the most recently acknowledged ones. -/
def mruIds (id : packet_id_type) (ids : List packet_id_type) : List packet_id_type :=
  let ids := if ids.length = 0 then [id] else ids
  match moveRight id id ids with
  | (ids, none) => ids
  | (ids, some move) => if ids.length < RELIABLE_ACK_SIZE then ids ++ [move] else ids

theorem length_mruIds {id : packet_id_type} {ids : List packet_id_type} (h : ids.length ≤ RELIABLE_ACK_SIZE) :
    (mruIds id ids).length ≤ RELIABLE_ACK_SIZE := by
  have hids : (if ids.length = 0 then [id] else ids).length ≤ RELIABLE_ACK_SIZE := by
    split_ifs
    · exact (by decide : 1 ≤ RELIABLE_ACK_SIZE)
    · exact h
  simp only [mruIds]
  generalize (if ids.length = 0 then [id] else ids) = start at hids
  rw [← length_moveRight id id start] at hids
  generalize moveRight id id start = moved at hids
  obtain ⟨moved, out⟩ := moved
  cases out with
  | none => exact hids
  | some move =>
      simp only
      split_ifs with hroom
      · simpa using hroom
      · exact hids

def copyToMru (id : packet_id_type) (ack_mru : ReliableAck) : ReliableAck :=
  ⟨mruIds id ack_mru.packet_id, length_mruIds ack_mru.len_le⟩

/-- The first `n` packet ids, from the last one to the first. -/
def copy_acks_to_mru (ack ack_mru : ReliableAck) (n : Nat) : ReliableAck :=
  (ack.packet_id.take n).foldr copyToMru ack_mru

def bytesOfIds (ids : List packet_id_type) : List UInt8 := ids.flatMap fun pid => BigEndian.bytes 4 pid.toNat

/-- The bytes of the record, the packet ids that are still to be acknowledged, and the most recently acknowledged
ones. -/
def reliable_ack_write (ack ack_mru : ReliableAck) (sid : SessionId) (max : Nat) :
    List UInt8 × ReliableAck × ReliableAck :=
  let n := min ack.packet_id.length max
  let ack_mru := copy_acks_to_mru ack ack_mru n
  let total_acks := min max ack_mru.packet_id.length
  (UInt8.ofNat total_acks :: bytesOfIds (ack_mru.packet_id.take total_acks) ++ (if total_acks ≠ 0 then sid.id else []),
    ⟨ack.packet_id.drop n, by simpa using (Nat.sub_le _ _).trans ack.len_le⟩, ack_mru)

/-! ## Packets -/

structure ReliableEntry where
  active : Bool := false
  timeout : Int := 0
  next_try : Int := 0
  packet_id : packet_id_type := 0
  n_acks : Nat := 0
  opcode : Nat := 0
  buf : List UInt8 := []

/-- `room` is what a buffer holds behind its offset. -/
structure Reliable where
  initial_timeout : Int
  packet_id : packet_id_type := 0
  room : Nat
  hold : Bool
  array : List ReliableEntry
  size_pos : 0 < array.length
  size_le : array.length ≤ RELIABLE_CAPACITY

namespace Reliable

def size (rel : Reliable) : Nat := rel.array.length

/-- `size` as the unsigned number that packet ids are compared with. -/
def extent (rel : Reliable) : packet_id_type := BitVec.ofNat 32 rel.size

def setEntry (rel : Reliable) (i : Nat) (e : ReliableEntry) : Reliable :=
  { rel with
    array := rel.array.set i e
    size_pos := by simpa using rel.size_pos
    size_le := by simpa using rel.size_le }

def mapEntries (rel : Reliable) (f : ReliableEntry → ReliableEntry) : Reliable :=
  { rel with
    array := rel.array.map f
    size_pos := by simpa using rel.size_pos
    size_le := by simpa using rel.size_le }

end Reliable

def reliable_init (initial_timeout : Int) (room array_size : Nat) (hold : Bool) (hpos : 0 < array_size)
    (hle : array_size ≤ RELIABLE_CAPACITY) : Reliable where
  initial_timeout := initial_timeout
  room := room
  hold := hold
  array := List.replicate array_size {}
  size_pos := by simpa using hpos
  size_le := by simpa using hle

def reliable_empty (rel : Reliable) : Bool := rel.array.all fun e => !e.active

def purgeEntry (pid : packet_id_type) (e : ReliableEntry) : ReliableEntry :=
  if e.active && e.packet_id == pid then { e with active := false }
  else if e.active && e.packet_id < pid then { e with n_acks := e.n_acks + 1 }
  else e

def reliable_send_purge (rel : Reliable) (ack : ReliableAck) : Reliable :=
  ack.packet_id.foldl (fun rel pid => rel.mapEntries (purgeEntry pid)) rel

def reliable_can_get (rel : Reliable) : Bool := rel.array.any fun e => !e.active

def reliable_not_replay (rel : Reliable) (id : packet_id_type) : Bool :=
  !(reliable_pid_min id rel.packet_id || rel.array.any fun e => e.active && e.packet_id == id)

def reliable_wont_break_sequentiality (rel : Reliable) (id : packet_id_type) : Bool :=
  reliable_pid_in_range2 id rel.packet_id rel.extent

def reliable_get_buf (rel : Reliable) : Option Nat := rel.array.findIdx? fun e => !e.active

/-- The smallest packet id of the active entries. -/
def minId (entries : List ReliableEntry) : Option packet_id_type :=
  (Least.scan ReliableEntry.active (fun e least => reliable_pid_min e.packet_id least.packet_id) entries).map
    ReliableEntry.packet_id

def reliable_get_num_output_sequenced_available (rel : Reliable) : Int :=
  match minId rel.array with
  | none => rel.size
  | some min_id => (rel.extent - subtract_pid rel.packet_id min_id).toInt

def reliable_get_buf_output_sequenced (rel : Reliable) : Option Nat :=
  if (minId rel.array).all fun min_id => reliable_pid_in_range1 rel.packet_id min_id rel.extent then
    reliable_get_buf rel
  else none

def reliable_get_entry_sequenced (rel : Reliable) : Option Nat :=
  rel.array.findIdx? fun e => e.active && e.packet_id == rel.packet_id

/-- Whether the packet of an entry is to be sent, the first time or again. -/
def due (now : Int) (e : ReliableEntry) : Bool :=
  e.active && (decide (e.n_acks ≥ N_ACK_RETRANSMIT) || decide (now ≥ e.next_try))

def reliable_can_send (now : Int) (rel : Reliable) : Bool := rel.array.any (due now) && !rel.hold

/-- The index of the entry with the smallest packet id that is to be sent. -/
def bestEntry (now : Int) (entries : List ReliableEntry) : Option (ReliableEntry × Nat) :=
  Least.scan (fun e => due now e.1) (fun e best => reliable_pid_min e.1.packet_id best.1.packet_id) entries.zipIdx

/-- The buffer and the opcode of the packet. -/
def reliable_send (now : Int) (rel : Reliable) : Option ((List UInt8 × Nat) × Reliable) :=
  (bestEntry now rel.array).map fun (best, i) =>
    ((best.buf, best.opcode),
      rel.setEntry i { best with next_try := now + best.timeout, timeout := best.timeout * 2, n_acks := 0 })

def reliable_schedule_now (now : Int) (rel : Reliable) : Reliable :=
  { rel.mapEntries fun e => if e.active then { e with next_try := now, timeout := rel.initial_timeout } else e with
    hold := false }

/-- `none` is a failed assertion. -/
def reliable_mark_active_incoming (rel : Reliable) (i : Nat) (buf : List UInt8) (pid : packet_id_type) (opcode : Nat) :
    Option Reliable :=
  if reliable_pid_min pid rel.packet_id then none
  else some (rel.setEntry i { active := true, packet_id := pid, opcode := opcode, buf := buf })

/-- The packet id is prepended to the packet; `n_acks` stays as it is. -/
def reliable_mark_active_outgoing (rel : Reliable) (i : Nat) (buf : List UInt8) (opcode : Nat) : Reliable :=
  { rel.setEntry i
      { active := true
        timeout := rel.initial_timeout
        next_try := 0
        packet_id := rel.packet_id
        n_acks := (rel.array[i]?.map ReliableEntry.n_acks).getD 0
        opcode := opcode
        buf := BigEndian.bytes 4 rel.packet_id.toNat ++ buf } with
    packet_id := rel.packet_id + 1 }

def reliable_mark_deleted (rel : Reliable) (i : Nat) : Reliable :=
  match rel.array[i]? with
  | none => rel
  | some e => { rel.setEntry i { e with active := false } with packet_id := e.packet_id + 1 }

end AllInSafe.ControlChannel
