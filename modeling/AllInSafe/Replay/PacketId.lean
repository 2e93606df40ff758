import AllInSafe.Library.BigEndian
import AllInSafe.Library.CircularList

/-!
# Packet ids

`packet_id.c`, the receiving and the sending side. A `time_t` is an `Int`; `now` is the clock of the call.
-/

namespace AllInSafe.Replay
open AllInSafe.Library

def SEQ_UNSEEN : Int := 0
def SEQ_EXPIRED : Int := 1
def SEQ_REAP_INTERVAL : Int := 5
def PACKET_ID_MAX : Nat := 0xFFFFFFFF
def PACKET_ID_EPOCH_MAX : Nat := 0x0000FFFFFFFFFFFF

structure PacketIdNet where
  id : Nat
  time : Int
  deriving DecidableEq, Repr

/-! ## The receiving side -/

/-- `seq_list` is null where no packet may arrive late. -/
structure PacketIdRec where
  last_reap : Int := 0
  time : Int := 0
  id : Nat := 0
  seq_backtrack : Nat := 0
  time_backtrack : Int := 0
  seq_list : Option (CircularList Int) := none

def packet_id_init_recv (seq_backtrack : Nat) (time_backtrack : Int) : PacketIdRec :=
  if h : 0 < seq_backtrack then
    { seq_list := some (CircularList.alloc seq_backtrack SEQ_UNSEEN h)
      seq_backtrack := seq_backtrack
      time_backtrack := time_backtrack }
  else {}

/-- The list after `n` iterations of the loop that moves the window. -/
def pushUnseen : Nat → CircularList Int → CircularList Int
  | 0, seq_list => seq_list
  | n + 1, seq_list => pushUnseen n (seq_list.push SEQ_UNSEEN)

/-- Whether the packet starts a new list of sequence numbers. -/
def restarts (pin : PacketIdNet) (seq_list : CircularList Int) (p : PacketIdRec) : Bool :=
  seq_list.size = 0 || pin.time > p.time || (pin.id ≥ p.seq_backtrack && pin.id - p.seq_backtrack > p.id)

def packet_id_add (now : Int) (pin : PacketIdNet) (p : PacketIdRec) : PacketIdRec :=
  match p.seq_list with
  | some seq_list =>
      let (time, id, seq_list) :=
        if restarts pin seq_list p then
          (pin.time, if pin.id > p.seq_backtrack then pin.id - p.seq_backtrack else 0, seq_list.reset)
        else (p.time, p.id, seq_list)
      let seq_list := pushUnseen (pin.id - id) seq_list
      let id := id + (pin.id - id)
      let diff := id - pin.id
      { p with
        time := time
        id := id
        seq_list := some (if diff < seq_list.size ∧ now > SEQ_EXPIRED then seq_list.set diff now else seq_list) }
  | none => { p with time := pin.time, id := pin.id }

/-- The loop of `packet_id_reap` from the index `i` on, with `n` entries left. -/
def reapFrom (time_backtrack now : Int) (expire : Bool) (i : Nat) : Nat → CircularList Int → CircularList Int
  | 0, seq_list => seq_list
  | n + 1, seq_list =>
      if h : i < seq_list.size then
        let t := seq_list.item i h
        if t = SEQ_EXPIRED then seq_list
        else
          let expire := expire || (t ≠ 0 && t + time_backtrack < now)
          reapFrom time_backtrack now expire (i + 1) n (if expire then seq_list.set i SEQ_EXPIRED else seq_list)
      else seq_list

def packet_id_reap (now : Int) (p : PacketIdRec) : PacketIdRec :=
  { p with
    seq_list := if p.time_backtrack ≠ 0 then
        p.seq_list.map fun seq_list => reapFrom p.time_backtrack now false 0 seq_list.size seq_list
      else p.seq_list
    last_reap := now }

def packet_id_reap_test (now : Int) (p : PacketIdRec) : PacketIdRec :=
  if p.last_reap + SEQ_REAP_INTERVAL ≤ now then packet_id_reap now p else p

def packet_id_test (pin : PacketIdNet) (p : PacketIdRec) : Bool :=
  if pin.id = 0 then false
  else
    match p.seq_list with
    | some seq_list =>
        if pin.time = p.time then
          if pin.id > p.id then true
          else if h : p.id - pin.id < seq_list.size then seq_list.item (p.id - pin.id) h = 0
          else false
        else if pin.time < p.time then false
        else true
    | none =>
        if pin.time = p.time then p.id = 0 || pin.id = p.id + 1
        else if pin.time < p.time then false
        else pin.id = 1

/-- `crypto_check_replay` for one receiver: whether the packet is taken, and the receiver after it. -/
def check_replay (now : Int) (pin : PacketIdNet) (p : PacketIdRec) : Bool × PacketIdRec :=
  let p := packet_id_reap_test now p
  if packet_id_test pin p then (true, packet_id_add now pin p) else (false, p)

/-! ## The sending side -/

structure PacketIdSend where
  id : Nat := 0
  time : Int := 0
  deriving DecidableEq, Repr

/-- Whether there is a next packet id, and the sender with it. -/
def packet_id_send_update (now : Int) (long_form : Bool) (p : PacketIdSend) : Bool × PacketIdSend :=
  let p := if p.time = 0 then { p with time := now } else p
  if p.id = PACKET_ID_MAX then
    if !long_form || now ≤ p.time then (false, p)
    else (true, { id := 1, time := now })
  else (true, { p with id := p.id + 1 })

def packet_id_send_update_epoch (now : Int) (p : PacketIdSend) : Bool × PacketIdSend :=
  let p := if p.time = 0 then { p with time := now } else p
  if p.id = PACKET_ID_EPOCH_MAX then (false, p)
  else (true, { p with id := p.id + 1 })

/-- The bytes of the next packet id, and the sender after it. -/
def packet_id_write (now : Int) (long_form : Bool) (p : PacketIdSend) : Option (List UInt8) × PacketIdSend :=
  match packet_id_send_update now long_form p with
  | (false, p) => (none, p)
  | (true, p) =>
      let net_time := (BitVec.ofInt 32 p.time).toNat
      (some (BigEndian.bytes 4 p.id ++ if long_form then BigEndian.bytes 4 net_time else []), p)

def packet_id_read (long_form : Bool) (buf : List UInt8) : Option (PacketIdNet × List UInt8) :=
  if buf.length < 4 then none
  else
    let id := BigEndian.value (buf.take 4)
    let buf := buf.drop 4
    if long_form then
      if buf.length < 4 then none
      else some (⟨id, BigEndian.value (buf.take 4)⟩, buf.drop 4)
    else some (⟨id, 0⟩, buf)

end AllInSafe.Replay
