import AllInSafe.ControlChannel.Model
import AllInSafe.Epoch.Keys
import AllInSafe.Library.Runs

/-!
# Packets of the data channel

What `crypto.c` does with the packets of AEAD ciphers in the epoch data format.
-/

namespace AllInSafe.Epoch
open AllInSafe.Library AllInSafe.Replay
open AllInSafe.ControlChannel (Side)

def PACKET_ID_MASK : Nat := 0x0000FFFFFFFFFFFF
def AEAD_LIMIT_BLOCKSIZE : Nat := 16

/-- The bytes of the next packet id, and the sender after it. -/
def packet_id_write_epoch (now : Int) (epoch : Nat) (p : PacketIdSend) : Option (List UInt8) × PacketIdSend :=
  match packet_id_send_update_epoch now p with
  | (false, p) => (none, p)
  | (true, p) => (some (BigEndian.bytes 8 (epoch <<< 48 ||| p.id)), p)

/-- The epoch, which is 0 for an error. -/
def packet_id_read_epoch (buf : List UInt8) : Nat × PacketIdNet :=
  if buf.length < 8 then (0, ⟨0, 0⟩)
  else
    let id := BigEndian.value (buf.take 8)
    (id >>> 48, ⟨id &&& PACKET_ID_MASK, 0⟩)

/-- The packet id with zeros behind it, and the implicit part of the IV over them. -/
def xorIv (packet_id implicit_iv : List UInt8) : List UInt8 :=
  List.zipWith (· ^^^ ·) (packet_id ++ List.replicate (implicit_iv.length - packet_id.length) 0) implicit_iv

def blocks (outlen : Nat) : Nat := (outlen + (AEAD_LIMIT_BLOCKSIZE - 1)) / AEAD_LIMIT_BLOCKSIZE

def KeyCtx.addBlocks (ctx : KeyCtx) (n : Nat) : KeyCtx :=
  { ctx with plaintext_blocks := (ctx.plaintext_blocks + n) % 2 ^ 64 }

/-! ## Sealing -/

/-- A packet: what stands in front of the packet id, and what follows. The other fields say what has been sealed, and
with which key and IV. -/
structure Sealed where
  opcode : List UInt8
  buf : List UInt8
  epoch : Nat
  id : Nat
  iv : List UInt8
  text : List UInt8
  deriving DecidableEq

variable (C : Crypto)

/-- `work` holds the opcode. Without a packet id there is no packet. -/
def openvpn_encrypt_aead (now : Int) (work buf : List UInt8) (co : CryptoOptions) :
    Option (Option Sealed × CryptoOptions) :=
  (epoch_check_send_iterate C co).bind fun co =>
    let ctx := co.encrypt
    match ctx.cipher with
    | none => none
    | some key =>
        match packet_id_write_epoch now ctx.epoch co.pid_send with
        | (none, p) => some (none, { co with pid_send := p })
        | (some header, p) =>
            let iv := xorIv header ctx.implicit_iv
            let c := C.encrypt key iv (work ++ header) buf
            some (some ⟨work, header ++ c.data ++ c.final ++ c.tag, ctx.epoch, p.id, iv, buf⟩,
              { co with pid_send := p, encrypt := ctx.addBlocks (blocks c.data.length) })

/-! ## Opening -/

/-- The check for the key that is in use. -/
def checkCurrent (now : Int) (pin : PacketIdNet) (co : CryptoOptions) : Bool × CryptoOptions :=
  let (taken, p) := check_replay now pin co.pid_rec
  (taken, { co with pid_rec := p })

def crypto_check_replay (now : Int) (pin : PacketIdNet) (epoch : Nat) (co : CryptoOptions) :
    Option (Bool × CryptoOptions) :=
  if epoch = 0 ∨ co.decrypt.epoch = epoch then some (checkCurrent now pin co)
  else if epoch = co.epoch_retiring_data_receive_key.epoch then
    let (taken, p) := check_replay now pin co.epoch_retiring_key_pid_recv
    some (taken, { co with epoch_retiring_key_pid_recv := p })
  else (epoch_replace_update_recv_key C epoch co).map (checkCurrent now pin)

def CryptoOptions.failedVerification (co : CryptoOptions) : KeySlot → CryptoOptions
  | .decrypt => { co with decrypt := { co.decrypt with failed_verifications := co.decrypt.failed_verifications + 1 } }
  | .retiring =>
      { co with
        epoch_retiring_data_receive_key :=
          { co.epoch_retiring_data_receive_key with
            failed_verifications := co.epoch_retiring_data_receive_key.failed_verifications + 1 } }
  | .future index =>
      { co with
        epoch_data_keys_future := co.epoch_data_keys_future.modify index fun ctx =>
          { ctx with failed_verifications := ctx.failed_verifications + 1 } }

/-- What stands behind the packet id, and the tag at its end. -/
def splitTag (buf : List UInt8) : List UInt8 × List UInt8 :=
  let data_len := buf.length - 8 - OPENVPN_AEAD_TAG_LENGTH
  ((buf.drop 8).take data_len, (buf.drop 8).drop data_len)

/-- The key of a packet, where there is one that may be used. -/
def lookupKey (buf : List UInt8) (co : CryptoOptions) : Option KeySlot :=
  if buf.length < 4 + OPENVPN_AEAD_TAG_LENGTH + 1 + 4 then none
  else
    let (epoch, _) := packet_id_read_epoch buf
    if epoch = 0 then none
    else (epoch_lookup_decrypt_key epoch co).filter fun slot => !cipher_decrypt_verify_fail_exceeded (co.key slot)

/-- The text of a packet under a key, where its tag is right. -/
def openPacket (key : List UInt8) (implicit_iv opcode buf : List UInt8) : Option (List UInt8 × List UInt8) :=
  let (data, tag) := splitTag buf
  C.decrypt key (xorIv (buf.take 8) implicit_iv) (opcode ++ buf.take 8) data tag

/-- What a packet opens to, where it has a key and its tag is right. -/
def authentic (opcode buf : List UInt8) (co : CryptoOptions) : Option (List UInt8 × List UInt8) :=
  (lookupKey buf co).bind fun slot =>
    (co.key slot).cipher.bind fun key => openPacket C key (co.key slot).implicit_iv opcode buf

/-- The end of `openvpn_decrypt_aead`, where the check says whether the packet is taken. -/
def takeText (data final : List UInt8) (checked : Bool × CryptoOptions) : Option (List UInt8) × CryptoOptions :=
  if checked.1 then
    (some (data ++ final), { checked.2 with decrypt := checked.2.decrypt.addBlocks (blocks final.length) })
  else (none, checked.2)

/-- The text of the packet, where it is taken. -/
def openvpn_decrypt_aead (now : Int) (opcode buf : List UInt8) (co : CryptoOptions) :
    Option (Option (List UInt8) × CryptoOptions) :=
  if co.decrypt.cipher.isNone then none
  else
    match lookupKey buf co with
    | none => some (none, co)
    | some slot =>
        match (co.key slot).cipher with
        | none => none
        | some key =>
            match openPacket C key (co.key slot).implicit_iv opcode buf with
            | none => some (none, co.failedVerification slot)
            | some (data, final) =>
                let (epoch, pin) := packet_id_read_epoch buf
                (crypto_check_replay C now pin epoch co).map (takeText data final)

/-! ## One side of a connection -/

/-- What one side of a connection is set up with. -/
structure Setup where
  C : Crypto
  key_type : KeyType
  aead_usage_limit : Nat
  e1_send : EpochKey
  e1_recv : EpochKey
  future_key_count : Nat
  seq_backtrack : Nat
  time_backtrack : Int
  send_first : e1_send.epoch = 1
  recv_first : e1_recv.epoch = 1
  count_pos : 0 < future_key_count
  count_le : future_key_count + 2 ≤ UINT16_MAX

def Setup.init (S : Setup) : Option CryptoOptions :=
  epoch_init_key_ctx S.C S.key_type S.aead_usage_limit S.e1_send S.e1_recv S.future_key_count
    (packet_id_init_recv S.seq_backtrack S.time_backtrack)

/-- A packet that has been taken. -/
structure Opened where
  epoch : Nat
  id : Nat
  text : List UInt8
  deriving DecidableEq

/-- `sealed` are the packets that have been sent and `opened` those that have been taken, the latest first. -/
structure Endpoint where
  co : CryptoOptions
  sealed : List Sealed := []
  opened : List Opened := []
  failed : Bool := false

inductive Event
  | send (now : Int) (work buf : List UInt8)
  | receive (now : Int) (opcode buf : List UInt8)

def Event.now : Event → Int
  | .send now _ _ => now
  | .receive now _ _ => now

/-- After a failed assertion nothing happens. -/
def Endpoint.step (p : Endpoint) (e : Event) : Option Endpoint :=
  if p.failed then none
  else
    match e with
    | .send now work buf =>
        match openvpn_encrypt_aead C now work buf p.co with
        | none => some { p with failed := true }
        | some (packet, co) => some { p with co := co, sealed := packet.toList ++ p.sealed }
    | .receive now opcode buf =>
        match openvpn_decrypt_aead C now opcode buf p.co with
        | none => some { p with failed := true }
        | some (text, co) =>
            let (epoch, pin) := packet_id_read_epoch buf
            some { p with co := co, opened := (text.map fun text => ⟨epoch, pin.id, text⟩).toList ++ p.opened }

def endpoint (co : CryptoOptions) : Machine Endpoint Event where
  init := { co := co }
  step := Endpoint.step C

/-! ## Both sides -/

/-- `e1` are the first keys that the sides send with. -/
structure Pair where
  C : Crypto
  key_type : KeyType
  aead_usage_limit : Nat
  e1 : Side → EpochKey
  future_key_count : Side → Nat
  seq_backtrack : Side → Nat
  time_backtrack : Side → Int
  first : ∀ s, (e1 s).epoch = 1
  count_pos : ∀ s, 0 < future_key_count s
  count_le : ∀ s, future_key_count s + 2 ≤ UINT16_MAX

def Pair.setup (P : Pair) (s : Side) : Setup where
  C := P.C
  key_type := P.key_type
  aead_usage_limit := P.aead_usage_limit
  e1_send := P.e1 s
  e1_recv := P.e1 s.other
  future_key_count := P.future_key_count s
  seq_backtrack := P.seq_backtrack s
  time_backtrack := P.time_backtrack s
  send_first := P.first s
  recv_first := P.first s.other
  count_pos := P.count_pos s
  count_le := P.count_le s

/-- A packet of the other side arrives, one that has been sent at some time; or any bytes that are not authentic. -/
inductive SessionEvent
  | send (s : Side) (now : Int) (work buf : List UInt8)
  | deliver (s : Side) (now : Int) (i : Nat)
  | inject (s : Side) (now : Int) (opcode buf : List UInt8)

def SessionEvent.now : SessionEvent → Int
  | .send _ now _ _ => now
  | .deliver _ now _ => now
  | .inject _ now _ _ => now

/-- A step of one side. -/
def Pair.sideStep (P : Pair) (w : Side → Endpoint) (s : Side) (e : Event) : Option (Side → Endpoint) :=
  ((w s).step P.C e).map (Function.update w s)

def Pair.step (P : Pair) (w : Side → Endpoint) : SessionEvent → Option (Side → Endpoint)
  | .send s now work buf => P.sideStep w s (.send now work buf)
  | .deliver s now i =>
      ((w s.other).sealed.reverse[i]?).bind fun packet => P.sideStep w s (.receive now packet.opcode packet.buf)
  | .inject s now opcode buf =>
      if (authentic P.C opcode buf (w s).co).isSome then none else P.sideStep w s (.receive now opcode buf)

def session (P : Pair) (co : Side → CryptoOptions) : Machine (Side → Endpoint) SessionEvent where
  init s := { co := co s }
  step := P.step

end AllInSafe.Epoch
