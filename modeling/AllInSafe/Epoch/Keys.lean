import AllInSafe.Replay.PacketId

/-!
# Epoch keys

`crypto_epoch.c`: the keys of the data channel, of which each follows from the one before it.
-/

namespace AllInSafe.Epoch
open AllInSafe.Library AllInSafe.Replay

def UINT16_MAX : Nat := 65535
def SHA256_DIGEST_LENGTH : Nat := 32

def OPENVPN_AEAD_TAG_LENGTH : Nat := 16
def OPENVPN_AEAD_MIN_IV_LEN : Nat := 12

/-- What a cipher makes of a text: the bytes of the update, those that the end adds, and the tag. -/
structure Ciphertext where
  data : List UInt8
  final : List UInt8
  tag : List UInt8
  deriving DecidableEq

/-- What the crypto library computes: HMAC-SHA256, and the cipher of the data channel. An opened text is what the update
gives with what the end adds. -/
structure Crypto where
  hmac (key text : List UInt8) : List UInt8
  encrypt (key iv ad text : List UInt8) : Ciphertext
  decrypt (key iv ad data tag : List UInt8) : Option (List UInt8 × List UInt8)
  length_hmac (key text : List UInt8) : (hmac key text).length = SHA256_DIGEST_LENGTH
  length_tag (key iv ad text : List UInt8) : (encrypt key iv ad text).tag.length = OPENVPN_AEAD_TAG_LENGTH
  decrypt_encrypt (key iv ad text : List UInt8) :
    let sealed := encrypt key iv ad text
    ∃ data final, decrypt key iv ad (sealed.data ++ sealed.final) sealed.tag = some (data, final) ∧ data ++ final = text

/-! ## Key derivation -/

def ascii (s : String) : List UInt8 := s.toList.map fun c => UInt8.ofNat c.toNat

/-- The first `n` blocks that are left, from `block` on, after the block `t_prev`. -/
def hkdfBlocks (hmac : List UInt8 → List UInt8 → List UInt8) (secret info : List UInt8) :
    Nat → Nat → List UInt8 → List UInt8
  | 0, _, _ => []
  | n + 1, block, t_prev =>
      let t := hmac secret (t_prev ++ info ++ [UInt8.ofNat block])
      t ++ hkdfBlocks hmac secret info n (block + 1) t

/-- The loop makes a block for each 32 bytes or less; at most 254 of them, since `block` is a `uint8_t`. -/
def ovpn_hkdf_expand (hmac : List UInt8 → List UInt8 → List UInt8) (secret info : List UInt8) (out_len : Nat) :
    List UInt8 :=
  (hkdfBlocks hmac secret info ((out_len + 31) / 32) 1 []).take out_len

def ovpn_expand_label (hmac : List UInt8 → List UInt8 → List UInt8) (secret : List UInt8) (secret_len : Nat)
    (label context : List UInt8) (out_len : Nat) : Option (List UInt8) :=
  if secret_len ≠ 32 ∨ label.length > 250 ∨ context.length > 255 ∨ label.length < 1 then none
  else
    let label_prefix := ascii "ovpn "
    let prefix_len := 5
    let hkdf_label := BigEndian.bytes 2 out_len ++ [UInt8.ofNat (prefix_len + label.length)] ++ label_prefix ++
      label ++ [UInt8.ofNat context.length] ++ context
    some (ovpn_hkdf_expand hmac secret hkdf_label out_len)

structure EpochKey where
  epoch_key : List UInt8
  epoch : Nat

/-- The lengths in bytes of a key and of an IV. -/
structure KeyType where
  cipher_key_size : Nat
  cipher_iv_size : Nat
  min_iv_len : OPENVPN_AEAD_MIN_IV_LEN ≤ cipher_iv_size

structure KeyParameters where
  cipher : List UInt8
  hmac : List UInt8
  epoch : Nat

/-- What stays where no label can be expanded. -/
def expand (C : Crypto) (k : EpochKey) (label : String) (out_len : Nat) : List UInt8 :=
  (ovpn_expand_label C.hmac k.epoch_key SHA256_DIGEST_LENGTH (ascii label) [] out_len).getD
    (List.replicate out_len 0)

def epoch_key_iterate (C : Crypto) (k : EpochKey) : EpochKey where
  epoch_key := expand C k "datakey upd" SHA256_DIGEST_LENGTH
  epoch := (k.epoch + 1) % 2 ^ 16

def epoch_data_key_derive (C : Crypto) (k : EpochKey) (kt : KeyType) : KeyParameters where
  cipher := expand C k "data_key" kt.cipher_key_size
  hmac := expand C k "data_iv" kt.cipher_iv_size
  epoch := k.epoch

/-! ## Contexts -/

/-- `cipher` is `none` for a null pointer. -/
structure KeyCtx where
  cipher : Option (List UInt8) := none
  implicit_iv : List UInt8 := []
  plaintext_blocks : Nat := 0
  failed_verifications : Nat := 0
  epoch : Nat := 0
  deriving DecidableEq

def init_key_ctx (key : KeyParameters) : KeyCtx :=
  { cipher := some key.cipher, implicit_iv := key.hmac, epoch := key.epoch }

def free_key_ctx (ctx : KeyCtx) : KeyCtx :=
  { ctx with cipher := none, implicit_iv := [], plaintext_blocks := 0, epoch := 0 }

/-- `encrypt` and `decrypt` are those of `key_ctx_bi`, `pid_send` and `pid_rec` those of `packet_id`. -/
structure CryptoOptions where
  encrypt : KeyCtx := {}
  decrypt : KeyCtx := {}
  epoch_key_send : EpochKey
  epoch_key_recv : EpochKey
  epoch_key_type : KeyType
  aead_usage_limit : Nat
  epoch_data_keys_future : List KeyCtx := []
  epoch_retiring_data_receive_key : KeyCtx := {}
  epoch_retiring_key_pid_recv : PacketIdRec := {}
  pid_send : PacketIdSend := {}
  pid_rec : PacketIdRec

variable (C : Crypto)

/-- `none` is a failed assertion, here and below. -/
def epoch_init_send_key_ctx (co : CryptoOptions) : Option CryptoOptions :=
  if co.encrypt.epoch ≠ co.epoch_key_send.epoch then
    some { co with
      encrypt := init_key_ctx (epoch_data_key_derive C co.epoch_key_send co.epoch_key_type)
      pid_send := {} }
  else none

def epoch_init_recv_key (co : CryptoOptions) : KeyCtx :=
  init_key_ctx (epoch_data_key_derive C co.epoch_key_recv co.epoch_key_type)

/-- The loop that puts `n` new keys at the end of the future ones. -/
def generateKeys : Nat → CryptoOptions → CryptoOptions
  | 0, co => co
  | n + 1, co =>
      let co := { co with epoch_key_recv := epoch_key_iterate C co.epoch_key_recv }
      generateKeys n { co with epoch_data_keys_future := co.epoch_data_keys_future ++ [epoch_init_recv_key C co] }

/-- A key that is used no more is freed. -/
def freeOld (current_decrypt_epoch : Nat) (ctx : KeyCtx) : KeyCtx :=
  if ctx.epoch > 0 ∧ ctx.epoch < current_decrypt_epoch then free_key_ctx ctx else ctx

/-- Without future keys the code would look in front of the array. -/
def epoch_generate_future_receive_keys (co : CryptoOptions) : Option CryptoOptions :=
  let current_decrypt_epoch := co.decrypt.epoch
  let count := co.epoch_data_keys_future.length
  match co.epoch_data_keys_future.getLast? with
  | none => none
  | some highest_future_key =>
      if ¬ (co.epoch_key_recv.epoch = 1 ∨ highest_future_key.epoch = co.epoch_key_recv.epoch) then none
      else
        let future := co.epoch_data_keys_future.map (freeOld current_decrypt_epoch)
        let highest_future_key := freeOld current_decrypt_epoch highest_future_key
        let current_highest_key := if highest_future_key.epoch ≠ 0 then highest_future_key.epoch else 1
        let desired_highest_key := (current_decrypt_epoch + count) % 2 ^ 16
        let num_keys_generate := (desired_highest_key + 2 ^ 16 - current_highest_key) % 2 ^ 16
        if num_keys_generate ≤ count ∧ ∀ k ∈ future.take num_keys_generate, k.epoch = 0 then
          let co := generateKeys C num_keys_generate { co with epoch_data_keys_future := future.drop num_keys_generate }
          if ∀ k ∈ co.epoch_data_keys_future, k.epoch > 0 then some co else none
        else none

def epoch_iterate_send_key (co : CryptoOptions) : Option CryptoOptions :=
  if co.epoch_key_send.epoch < UINT16_MAX then
    epoch_init_send_key_ctx C
      { co with epoch_key_send := epoch_key_iterate C co.epoch_key_send, encrypt := free_key_ctx co.encrypt }
  else none

/-- The old list is moved, and the receiver starts again. -/
def packet_id_move_recv (src : PacketIdRec) : PacketIdRec × PacketIdRec :=
  (src, packet_id_init_recv src.seq_backtrack src.time_backtrack)

/-- The loop runs once for each epoch that the send key is behind. -/
def updateSendKey (new_epoch : Nat) (co : CryptoOptions) : Option CryptoOptions :=
  if co.encrypt.epoch < new_epoch then
    epoch_init_send_key_ctx C
      { co with
        encrypt := free_key_ctx co.encrypt
        epoch_key_send := (epoch_key_iterate C)^[new_epoch - co.epoch_key_send.epoch] co.epoch_key_send }
  else some co

def epoch_replace_update_recv_key (new_epoch : Nat) (co : CryptoOptions) : Option CryptoOptions :=
  match co.epoch_data_keys_future.findIdx? (·.epoch = new_epoch) with
  | none => none
  | some fki =>
      let new_ctx := co.epoch_data_keys_future.getD fki {}
      (updateSendKey C new_epoch co).bind fun co =>
        let (retiring, current) := packet_id_move_recv co.pid_rec
        epoch_generate_future_receive_keys C
          { co with
            epoch_retiring_data_receive_key := co.decrypt
            epoch_retiring_key_pid_recv := retiring
            pid_rec := current
            decrypt := new_ctx
            epoch_data_keys_future := co.epoch_data_keys_future.set fki {} }

/-- The options before it have neither keys nor packet ids. -/
def epoch_init_key_ctx (key_type : KeyType) (aead_usage_limit : Nat) (e1_send e1_recv : EpochKey)
    (future_key_count : Nat) (pid_rec : PacketIdRec) : Option CryptoOptions :=
  if e1_send.epoch = 1 ∧ e1_recv.epoch = 1 then
    let co : CryptoOptions :=
      { epoch_key_send := e1_send
        epoch_key_recv := e1_recv
        epoch_key_type := key_type
        aead_usage_limit := aead_usage_limit
        pid_rec := pid_rec }
    (epoch_init_send_key_ctx C co).bind fun co =>
      epoch_generate_future_receive_keys C
        { co with
          decrypt := epoch_init_recv_key C co
          epoch_data_keys_future := List.replicate future_key_count {} }
  else none

/-! ## The keys of packets -/

/-- Where a key for received packets is kept. -/
inductive KeySlot
  | decrypt
  | retiring
  | future (index : Nat)
  deriving DecidableEq, Repr

def CryptoOptions.key (co : CryptoOptions) : KeySlot → KeyCtx
  | .decrypt => co.decrypt
  | .retiring => co.epoch_retiring_data_receive_key
  | .future index => co.epoch_data_keys_future.getD index {}

def epoch_lookup_decrypt_key (epoch : Nat) (co : CryptoOptions) : Option KeySlot :=
  if co.decrypt.epoch = epoch then some .decrypt
  else if co.epoch_retiring_data_receive_key.epoch ≠ 0 ∧ co.epoch_retiring_data_receive_key.epoch = epoch then
    some .retiring
  else if epoch > co.decrypt.epoch ∧ epoch ≤ co.decrypt.epoch + co.epoch_data_keys_future.length then
    let index := epoch - (co.decrypt.epoch + 1)
    if epoch > UINT16_MAX - co.epoch_data_keys_future.length - 1 then none else some (.future index)
  else none

/-- A key that has been used for that many blocks and packets is replaced; without a limit none is. -/
def aead_usage_limit_reached (limit : Nat) (ctx : KeyCtx) (highest_pid : Nat) : Bool :=
  limit > 0 && (ctx.plaintext_blocks + highest_pid) % 2 ^ 64 > limit

def cipher_decrypt_verify_fail_exceeded (ctx : KeyCtx) : Bool := ctx.failed_verifications > 2 ^ 36

def cipher_decrypt_verify_fail_warn (ctx : KeyCtx) : Bool := ctx.failed_verifications > 2 ^ 35

def epoch_check_send_iterate (co : CryptoOptions) : Option CryptoOptions :=
  if co.epoch_key_send.epoch = UINT16_MAX then some co
  else
    let limited :=
      if co.aead_usage_limit ≠ 0 ∧ (aead_usage_limit_reached co.aead_usage_limit co.encrypt co.pid_send.id ∨
          co.encrypt.epoch = co.decrypt.epoch ∧ (aead_usage_limit_reached co.aead_usage_limit co.decrypt co.pid_rec.id ∨
            cipher_decrypt_verify_fail_warn co.decrypt)) then
        epoch_iterate_send_key C co
      else some co
    limited.bind fun co => if co.pid_send.id = PACKET_ID_EPOCH_MAX then epoch_iterate_send_key C co else some co

end AllInSafe.Epoch
