import AllInSafe.Library.BigEndian
import AllInSafe.Library.Runs

/-!
# The stream buffer of a TCP socket

`socket.c`, where packets with a length in front are put together from what the socket gives. Port sharing is left out.
-/

namespace AllInSafe.Socket
open AllInSafe.Library

/-- `capacity` is what `buf` holds behind its headroom, and `offset` how far its start has moved. `len` is unknown before
the length has been read; `next` is the room for the next read. -/
structure StreamBuf where
  maxlen : Nat
  capacity : Nat
  residual : List UInt8 := []
  residual_fully_formed : Bool := false
  buf : List UInt8 := []
  offset : Nat := 0
  next : Option Nat := none
  len : Option Nat := none
  error : Bool := false
  deriving DecidableEq

def stream_buf_reset (sb : StreamBuf) : StreamBuf :=
  { sb with residual_fully_formed := false, buf := [], offset := 0, next := none, len := none }

def stream_buf_init (maxlen capacity : Nat) : StreamBuf := { maxlen := maxlen, capacity := capacity }

/-- `none` is a failed assertion, here and below. -/
def stream_buf_set_next (sb : StreamBuf) : Option StreamBuf :=
  let next := sb.len.getD sb.maxlen - sb.buf.length
  if next > 0 ∧ sb.offset + sb.buf.length + next ≤ sb.capacity then some { sb with next := some next } else none

/-- The second half of `stream_buf_added`: whether a packet is complete. -/
def stream_buf_complete (sb : StreamBuf) : Option (Bool × StreamBuf) :=
  if sb.len.any fun len => len > 0 && sb.buf.length ≥ len then
    let len := sb.len.getD 0
    if sb.buf.length - len ≤ sb.maxlen then
      some (true, { sb with residual := sb.buf.drop len, buf := sb.buf.take len })
    else none
  else (stream_buf_set_next sb).map fun sb => (false, sb)

/-- The bytes have been put behind those of `buf`. -/
def stream_buf_added (added : List UInt8) (sb : StreamBuf) : Option (Bool × StreamBuf) :=
  let sb := { sb with buf := sb.buf ++ added }
  if sb.len = none ∧ 2 ≤ sb.buf.length then
    let len := BigEndian.value (sb.buf.take 2)
    let sb := { sb with len := some len, buf := sb.buf.drop 2, offset := sb.offset + 2 }
    if len < 1 ∨ len > sb.maxlen then some (false, { stream_buf_reset sb with error := true })
    else stream_buf_complete sb
  else stream_buf_complete sb

/-- Whether the socket has to be read. -/
def stream_buf_read_setup_dowork (sb : StreamBuf) : Option (Bool × StreamBuf) :=
  let moved :=
    if sb.residual.length ≠ 0 ∧ !sb.residual_fully_formed then
      if sb.offset + sb.buf.length + sb.residual.length ≤ sb.capacity then
        (stream_buf_added [] { sb with buf := sb.buf ++ sb.residual, residual := [] }).map fun (formed, sb) =>
          { sb with residual_fully_formed := formed }
      else none
    else some sb
  moved.bind fun sb =>
    if !sb.residual_fully_formed then (stream_buf_set_next sb).map fun sb => (true, sb) else some (false, sb)

/-- The packet, where it is complete, with the bytes that the socket gives. -/
def link_socket_read_tcp (received : List UInt8) (sb : StreamBuf) : Option (Option (List UInt8) × StreamBuf) :=
  if sb.residual_fully_formed then some (some sb.buf, stream_buf_reset sb)
  else
    (stream_buf_added received sb).map fun (formed, sb) =>
      if formed then (some sb.buf, stream_buf_reset sb) else (none, sb)

/-- The bytes of a packet on the wire, `none` where the assertion fails. -/
def link_socket_write_tcp (maxlen : Nat) (buf : List UInt8) : Option (List UInt8) :=
  let len := buf.length % 2 ^ 16
  if len ≤ maxlen then some (BigEndian.bytes 2 len ++ buf) else none

/-! ## A connection -/

/-- `wire` are the bytes that have not been received, and `output` the packets that have been read. -/
structure Connection where
  sb : StreamBuf
  wire : List UInt8
  output : List (List UInt8) := []
  failed : Bool := false
  deriving DecidableEq

/-- A read, in which the socket gives `n` bytes when it is read. After an error the connection is restarted: what is
read then is thrown away. -/
def read (c : Connection) (n : Nat) : Option Connection :=
  if c.sb.error ∨ c.failed then none
  else
    match stream_buf_read_setup_dowork c.sb with
    | none => some { c with failed := true }
    | some (needed, sb) =>
        if sb.error then some { c with sb := sb }
        else if needed ∧ ¬ (0 < n ∧ n ≤ c.wire.length ∧ sb.next.any fun room => n ≤ room) then none
        else
          let received := if needed then c.wire.take n else []
          match link_socket_read_tcp received sb with
          | none => some { c with failed := true }
          | some (packet, sb) =>
              some { c with sb := sb, wire := c.wire.drop received.length, output := c.output ++ packet.toList }

/-- A connection that is about to receive a stream. -/
def connection (maxlen capacity : Nat) (stream : List UInt8) : Machine Connection Nat where
  init := { sb := stream_buf_init maxlen capacity, wire := stream }
  step := read

end AllInSafe.Socket
