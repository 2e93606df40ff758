import AllInSafe.ControlChannel.Reliable
import AllInSafe.Library.Runs

/-!
# Control channels

Two sides that send each other packets over a network, which loses, repeats and reorders them: what `ssl.c` does with
the reliability layers of a key state.
-/

namespace AllInSafe.ControlChannel
open AllInSafe.Library

def P_CONTROL_V1 : Nat := 4
def P_ACK_V1 : Nat := 5
def CONTROL_SEND_ACK_MAX : Nat := 4
def TLS_RELIABLE_N_SEND_BUFFERS : Nat := 6
def TLS_RELIABLE_N_REC_BUFFERS : Nat := 12

/-- The acknowledgments to write, those written last, and the packets of both directions. -/
structure KeyState where
  send_reliable : Reliable
  rec_reliable : Reliable
  rec_ack : ReliableAck := ⟨[], nil_length_le⟩
  lru_acks : ReliableAck := ⟨[], nil_length_le⟩

/-- A packet of the control channel behind its header. -/
structure ControlPacket where
  opcode : Nat
  body : List UInt8
  deriving DecidableEq

/-- `workaround` is the case of a client without tls-auth and key material export. -/
def write_control_auth (workaround : Bool) (session_id_remote : SessionId) (buf : List UInt8) (opcode max_ack : Nat)
    (prepend_ack : Bool) (ks : KeyState) : ControlPacket × KeyState :=
  let max_ack := if workaround then min max_ack 4 else max_ack
  let (record, rec_ack, lru_acks) := reliable_ack_write ks.rec_ack ks.lru_acks session_id_remote max_ack
  (⟨opcode, if prepend_ack then record ++ buf else buf ++ record⟩, { ks with rec_ack := rec_ack, lru_acks := lru_acks })

/-- What `tls_pre_decrypt` does with a packet of an existing session; `none` is a failed assertion. -/
def receive_control (session_id : SessionId) (packet : ControlPacket) (ks : KeyState) : Option KeyState :=
  match reliable_ack_read packet.body session_id with
  | none => some ks
  | some (send_ack, buf) =>
      let ks := { ks with send_reliable := reliable_send_purge ks.send_reliable send_ack }
      if packet.opcode ≠ P_ACK_V1 ∧ reliable_can_get ks.rec_reliable then
        match reliable_ack_read_packet_id buf with
        | none => some ks
        | some (id, buf) =>
            let rec_ack := reliable_ack_acknowledge_packet_id ks.rec_ack id
            if reliable_wont_break_sequentiality ks.rec_reliable id then
              if reliable_not_replay ks.rec_reliable id then
                match reliable_get_buf ks.rec_reliable with
                | none => none
                | some i =>
                    if buf.length ≤ ks.rec_reliable.room then
                      (reliable_mark_active_incoming ks.rec_reliable i buf id packet.opcode).map fun rec_reliable =>
                        { ks with rec_reliable := rec_reliable, rec_ack := rec_ack }
                    else some ks
              else some { ks with rec_ack := rec_ack }
            else some ks
      else some ks

/-! ## The two sides -/

inductive Side
  | client
  | server
  deriving DecidableEq, Repr

def Side.other : Side → Side
  | .client => .server
  | .server => .client

@[simp] theorem Side.other_other {s : Side} : s.other.other = s := by cases s <;> rfl

@[simp] theorem Side.other_ne {s : Side} : s.other ≠ s := by cases s <;> decide

@[simp] theorem Side.ne_other {s : Side} : s ≠ s.other := by cases s <;> decide

theorem Side.forall_of {P : Side → Prop} (s : Side) (h : P s) (h' : P s.other) : ∀ t, P t := by
  intro t
  cases s <;> cases t <;> assumption

/-- A packet without what the reliability layer adds. -/
structure Payload where
  opcode : Nat
  content : List UInt8
  deriving DecidableEq

structure Options where
  session_id : Side → SessionId
  defined : ∀ s, session_id_defined (session_id s) = true
  workaround : Side → Bool
  packet_timeout : Int
  room : Side → Nat
  hold : Side → Bool

/-- `sent` are all packets of a side that the network may deliver, `written` those that its TLS object has written, and
`delivered` those that it has read. -/
structure World where
  key_state : Side → KeyState
  sent : Side → List ControlPacket := fun _ => []
  written : Side → List Payload := fun _ => []
  delivered : Side → List Payload := fun _ => []
  failed : Bool := false

inductive Event
  | write (s : Side) (packet : Payload)
  | send (s : Side) (now : Int)
  | send_ack (s : Side)
  | receive (s : Side) (i : Nat)
  | read (s : Side)
  | schedule_now (s : Side) (now : Int)

namespace World

def setKeyState (w : World) (s : Side) (ks : KeyState) : World :=
  { w with key_state := Function.update w.key_state s ks }

/-- The packet goes to the network. -/
def addSent (w : World) (s : Side) (packet : ControlPacket) : World :=
  { w with sent := Function.update w.sent s (w.sent s ++ [packet]) }

def addWritten (w : World) (s : Side) (packet : Payload) : World :=
  { w with written := Function.update w.written s (w.written s ++ [packet]) }

def addDelivered (w : World) (s : Side) (packet : Payload) : World :=
  { w with delivered := Function.update w.delivered s (w.delivered s ++ [packet]) }

end World

theorem sendBuffers_pos : 0 < TLS_RELIABLE_N_SEND_BUFFERS := by decide

theorem sendBuffers_le : TLS_RELIABLE_N_SEND_BUFFERS ≤ RELIABLE_CAPACITY := by decide

theorem recBuffers_pos : 0 < TLS_RELIABLE_N_REC_BUFFERS := by decide

theorem recBuffers_le : TLS_RELIABLE_N_REC_BUFFERS ≤ RELIABLE_CAPACITY := by decide

def newKeyState (o : Options) (s : Side) : KeyState where
  send_reliable :=
    reliable_init o.packet_timeout (o.room s) TLS_RELIABLE_N_SEND_BUFFERS (o.hold s) sendBuffers_pos sendBuffers_le
  rec_reliable := reliable_init 0 (o.room s) TLS_RELIABLE_N_REC_BUFFERS false recBuffers_pos recBuffers_le

/-- One event. A packet that is written is no acknowledgment, and fits into its buffer. -/
def step (o : Options) (w : World) : Event → Option World
  | .write s packet =>
      let ks := w.key_state s
      if packet.opcode = P_ACK_V1 ∨ ks.send_reliable.room < packet.content.length then none
      else
        (reliable_get_buf_output_sequenced ks.send_reliable).map fun i =>
          (w.setKeyState s
            { ks with
              send_reliable := reliable_mark_active_outgoing ks.send_reliable i packet.content packet.opcode }).addWritten
            s packet
  | .send s now =>
      let ks := w.key_state s
      if reliable_can_send now ks.send_reliable then
        match reliable_send now ks.send_reliable with
        | none => some { w with failed := true }
        | some ((buf, opcode), send_reliable) =>
            let (packet, ks) := write_control_auth (o.workaround s) (o.session_id s.other) buf opcode
              CONTROL_SEND_ACK_MAX true { ks with send_reliable := send_reliable }
            some ((w.setKeyState s ks).addSent s packet)
      else none
  | .send_ack s =>
      let ks := w.key_state s
      if reliable_ack_empty ks.rec_ack then none
      else
        let (packet, ks) := write_control_auth (o.workaround s) (o.session_id s.other) [] P_ACK_V1 RELIABLE_ACK_SIZE
          false ks
        some ((w.setKeyState s ks).addSent s packet)
  | .receive s i =>
      (w.sent s.other)[i]?.map fun packet =>
        match receive_control (o.session_id s) packet (w.key_state s) with
        | none => { w with failed := true }
        | some ks => w.setKeyState s ks
  | .read s =>
      let ks := w.key_state s
      (reliable_get_entry_sequenced ks.rec_reliable).bind fun i =>
        ks.rec_reliable.array[i]?.map fun entry =>
          (w.setKeyState s { ks with rec_reliable := reliable_mark_deleted ks.rec_reliable i }).addDelivered s
            ⟨entry.opcode, entry.buf⟩
  | .schedule_now s now =>
      let ks := w.key_state s
      some (w.setKeyState s { ks with send_reliable := reliable_schedule_now now ks.send_reliable })

def channel (o : Options) : Machine World Event where
  init := { key_state := newKeyState o }
  step := step o

end AllInSafe.ControlChannel
