import AllInSafe.Epoch.Lemmas.Sound
import AllInSafe.Replay.Theorems

/-!
# Packets that are sealed and opened
-/

namespace AllInSafe.Epoch
open AllInSafe.Library AllInSafe.Replay

variable {S : Setup} {co co' : CryptoOptions} {now : Int} {opcode buf work : List UInt8} {e id n : Nat}
  {opened : List Opened}

/-! ## Packet ids on the wire -/

/-- The bytes in front of a packet, for an epoch and an id. -/
def header (e id : Nat) : List UInt8 := BigEndian.bytes 8 (e * 2 ^ 48 + id)

@[simp] theorem length_header : (header e id).length = 8 := BigEndian.length_bytes 8 _

theorem shift_eq (hid : id ≤ PACKET_ID_EPOCH_MAX) : e <<< 48 ||| id = e * 2 ^ 48 + id := by
  rw [← Nat.shiftLeft_add_eq_or_of_lt (by rw [PACKET_ID_EPOCH_MAX] at hid; omega), Nat.shiftLeft_eq]

theorem read_header (hepoch : e ≤ UINT16_MAX) (hid : id ≤ PACKET_ID_EPOCH_MAX) :
    packet_id_read_epoch (header e id ++ buf) = (e, ⟨id, 0⟩) := by
  rw [UINT16_MAX] at hepoch
  rw [PACKET_ID_EPOCH_MAX] at hid
  rw [packet_id_read_epoch, if_neg (by simp), List.take_left' length_header, header,
    BigEndian.value_bytes_of_lt (by omega)]
  have hmask : (e * 2 ^ 48 + id) &&& PACKET_ID_MASK = (e * 2 ^ 48 + id) % 2 ^ 48 := Nat.and_two_pow_sub_one_eq_mod _ 48
  simp only [hmask, Nat.shiftRight_eq_div_pow]
  congr 2
  · omega
  · omega

/-- The last id of an epoch has no next one. -/
theorem write_cases (now : Int) (e : Nat) {q : PacketIdSend} (hid : q.id ≤ PACKET_ID_EPOCH_MAX) : ∃ q',
    packet_id_write_epoch now e q = (none, q') ∧ q'.id = q.id ∨
      packet_id_write_epoch now e q = (some (header e (q.id + 1)), q') ∧ q'.id = q.id + 1 ∧
        q.id + 1 ≤ PACKET_ID_EPOCH_MAX := by
  unfold packet_id_write_epoch packet_id_send_update_epoch
  have hsame : (if q.time = 0 then { q with time := now } else q).id = q.id := by split_ifs <;> rfl
  generalize (if q.time = 0 then { q with time := now } else q) = q₀ at hsame
  rw [← hsame] at hid ⊢
  by_cases hlast : q₀.id = PACKET_ID_EPOCH_MAX
  · simp only [if_pos hlast]
    exact ⟨_, .inl ⟨rfl, rfl⟩⟩
  · have hnext : q₀.id + 1 ≤ PACKET_ID_EPOCH_MAX := lt_of_le_of_ne hid hlast
    simp only [if_neg hlast, shift_eq hnext]
    exact ⟨_, .inr ⟨rfl, rfl, hnext⟩⟩

theorem xor_cancel (a iv : List UInt8) (h : a.length ≤ iv.length) :
    List.zipWith (· ^^^ ·) (List.zipWith (· ^^^ ·) a iv) iv = a := by
  induction a generalizing iv with
  | nil => simp
  | cons x a ih =>
      cases iv with
      | nil => simp at h
      | cons y iv => simp [ih iv (by simpa using h)]

theorem xorIv_inj {a b iv : List UInt8} (ha : a.length = 8) (hb : b.length = 8) (hiv : 8 ≤ iv.length)
    (h : xorIv a iv = xorIv b iv) : a = b := by
  have hcancel := congrArg (fun l => List.zipWith (· ^^^ ·) l iv) h
  simp only [xorIv] at hcancel
  rw [xor_cancel _ _ (by simp; omega), xor_cancel _ _ (by simp; omega)] at hcancel
  exact (List.append_inj hcancel (ha.trans hb.symm)).1

/-! ## Sending -/

/-- Where a sender is among all epochs and packet ids. -/
def position (co : CryptoOptions) : Nat := co.encrypt.epoch * 2 ^ 48 + co.pid_send.id

def Sealed.position (s : Sealed) : Nat := s.epoch * 2 ^ 48 + s.id

/-- What a packet has been made from. -/
structure SealedWith (S : Setup) (s : Sealed) : Prop where
  epoch_pos : 0 < s.epoch
  epoch_le : s.epoch ≤ UINT16_MAX
  id_pos : 0 < s.id
  id_le : s.id ≤ PACKET_ID_EPOCH_MAX
  iv : s.iv = xorIv (header s.epoch s.id) (epoch_data_key_derive S.C (epochKey S.C S.e1_send s.epoch) S.key_type).hmac
  buf : ∃ c, c = S.C.encrypt (epoch_data_key_derive S.C (epochKey S.C S.e1_send s.epoch) S.key_type).cipher s.iv
    (s.opcode ++ header s.epoch s.id) s.text ∧ s.buf = header s.epoch s.id ++ c.data ++ c.final ++ c.tag

/-- Packets of an epoch with the same IV have the same id. -/
theorem SealedWith.position_eq {s t : Sealed} (hs : SealedWith S s) (ht : SealedWith S t)
    (h : (s.epoch, s.iv) = (t.epoch, t.iv)) : s.position = t.position := by
  obtain ⟨hepoch, hiv⟩ := Prod.mk.inj h
  have hlength := S.key_type.min_iv_len
  rw [hs.iv, ht.iv, hepoch] at hiv
  have hheader := xorIv_inj length_header length_header
    (by rw [epoch_data_key_derive, length_expand]; exact le_trans (by decide) hlength) hiv
  have hread : packet_id_read_epoch (header t.epoch s.id ++ []) = _ := read_header ht.epoch_le hs.id_le
  rw [hheader, read_header ht.epoch_le ht.id_le] at hread
  rw [Sealed.position, Sealed.position, hepoch, (PacketIdNet.mk.inj (Prod.mk.inj hread).2).1]

theorem read_sealed {s : Sealed} (h : SealedWith S s) : packet_id_read_epoch s.buf = (s.epoch, ⟨s.id, 0⟩) := by
  obtain ⟨c, -, hbuf⟩ := h.buf
  rw [hbuf, List.append_assoc, List.append_assoc, read_header h.epoch_le h.id_le]

/-- A packet opens to the text that has been sealed. -/
theorem openPacket_sealed {s : Sealed} (h : SealedWith S s) : ∃ data final, data ++ final = s.text ∧
    openPacket S.C (epoch_data_key_derive S.C (epochKey S.C S.e1_send s.epoch) S.key_type).cipher
      (epoch_data_key_derive S.C (epochKey S.C S.e1_send s.epoch) S.key_type).hmac s.opcode s.buf =
        some (data, final) := by
  obtain ⟨c, hc, hbuf⟩ := h.buf
  obtain ⟨data, final, hdecrypt, htext⟩ := S.C.decrypt_encrypt
    (epoch_data_key_derive S.C (epochKey S.C S.e1_send s.epoch) S.key_type).cipher s.iv
    (s.opcode ++ header s.epoch s.id) s.text
  have htag := S.C.length_tag (epoch_data_key_derive S.C (epochKey S.C S.e1_send s.epoch) S.key_type).cipher s.iv
    (s.opcode ++ header s.epoch s.id) s.text
  simp only [← hc] at hdecrypt htag
  have hdrop : s.buf.drop 8 = c.data ++ c.final ++ c.tag := by
    rw [hbuf, List.append_assoc, List.append_assoc, List.drop_left' length_header, List.append_assoc]
  have hlength : s.buf.length - 8 - OPENVPN_AEAD_TAG_LENGTH = (c.data ++ c.final).length := by
    rw [← List.length_drop, hdrop, List.length_append, htag, Nat.add_sub_cancel]
  have htake : s.buf.take 8 = header s.epoch s.id := by
    rw [hbuf, List.append_assoc, List.append_assoc, List.take_left' length_header]
  refine ⟨data, final, htext, ?_⟩
  rw [openPacket, splitTag, hlength, hdrop, htake, List.take_left, List.drop_left, ← h.iv]
  exact hdecrypt

/-- A sender never fails and never goes back, and a packet has the next position. -/
theorem encrypt_cases (now : Int) (work buf : List UInt8) (h : Sound S co)
    (hid : co.pid_send.id ≤ PACKET_ID_EPOCH_MAX) : ∃ packet co',
    openvpn_encrypt_aead S.C now work buf co = some (packet, co') ∧ Sound S co' ∧ SameReceiver co co' ∧
      co'.pid_send.id ≤ PACKET_ID_EPOCH_MAX ∧ position co ≤ position co' ∧
      ∀ s ∈ packet, SealedWith S s ∧ position co < s.position ∧ s.position = position co' ∧
        s.epoch = co'.encrypt.epoch ∧
        s.text = buf ∧ s.opcode = work := by
  obtain ⟨mid, hmid, hsound, hsame, hsend⟩ := h.check_send_iterate
  have hle : mid.pid_send.id ≤ PACKET_ID_EPOCH_MAX ∧ position co ≤ position mid := by
    rcases hsend with ⟨hepoch, hpid⟩ | ⟨hencrypt, hpid⟩
    · rw [PACKET_ID_EPOCH_MAX] at *
      rw [position, position, hepoch, hpid]
      simp only
      omega
    · rw [position, position, hpid, hencrypt]
      exact ⟨hid, le_refl _⟩
  obtain ⟨hmid_le, hmid_position⟩ := hle
  unfold openvpn_encrypt_aead
  obtain ⟨q, ⟨hwrite, hq⟩ | ⟨hwrite, hq, hnext⟩⟩ := write_cases now mid.encrypt.epoch hmid_le
  · simp only [hmid, Option.bind_some, hsound.send.cipher, hwrite]
    refine ⟨none, _, rfl, ⟨hsound.type, hsound.send_key, hsound.send, hsound.send_le, hsound.recv_key, hsound.recv,
      hsound.recv_pos, hsound.recv_le, hsound.future, hsound.count, hsound.retiring, hsound.ahead⟩, ⟨hsame.decrypt,
      hsame.future, hsame.retiring, hsame.pid_retiring, hsame.pid_rec⟩, hq.trans_le hmid_le, ?_, nofun⟩
    rw [position, position] at hmid_position ⊢
    simp only [hq]
    exact hmid_position
  · simp only [hmid, Option.bind_some, hsound.send.cipher, hwrite]
    refine ⟨some _, _, rfl, ⟨hsound.type, hsound.send_key, ⟨hsound.send.cipher, hsound.send.implicit_iv,
      hsound.send.epoch⟩,
      hsound.send_le, hsound.recv_key, hsound.recv, hsound.recv_pos, hsound.recv_le, hsound.future, hsound.count,
      hsound.retiring, hsound.ahead⟩, ⟨hsame.decrypt, hsame.future, hsame.retiring, hsame.pid_retiring, hsame.pid_rec⟩,
      hq.trans_le hnext, ?_, fun s hs => ?_⟩
    · rw [position, position] at hmid_position ⊢
      simp only [hq, KeyCtx.addBlocks]
      omega
    · cases hs
      rw [position, position] at hmid_position
      simp only [Sealed.position, position, hq, KeyCtx.addBlocks]
      refine ⟨⟨hsound.send_pos, hsound.send_le, Nat.succ_pos _, hnext, ?_, _, rfl, rfl⟩, by omega, trivial, trivial,
        trivial, trivial⟩
      exact congrArg (xorIv _) hsound.send.implicit_iv

/-! ## Opening -/

/-- The epochs and packet ids are the same. -/
structure SameIds (co co' : CryptoOptions) : Prop where
  encrypt : co'.encrypt = co.encrypt
  pid_send : co'.pid_send = co.pid_send
  decrypt : co'.decrypt.epoch = co.decrypt.epoch
  retiring : co'.epoch_retiring_data_receive_key.epoch = co.epoch_retiring_data_receive_key.epoch
  pid_retiring : co'.epoch_retiring_key_pid_recv = co.epoch_retiring_key_pid_recv
  pid_rec : co'.pid_rec = co.pid_rec

theorem Consecutive.modify {C : Crypto} {kt : KeyType} {first : EpochKey} {keys : List KeyCtx} {f : KeyCtx → KeyCtx}
    (h : Consecutive C kt first e keys) (hf : ∀ ctx e, Holds C kt first ctx e → Holds C kt first (f ctx) e) (i : Nat) :
    Consecutive C kt first e (keys.modify i f) := by
  induction keys generalizing e i with
  | nil => simpa using h
  | cons ctx keys ih =>
      cases i with
      | zero => exact ⟨hf ctx e h.1, h.2⟩
      | succ i => exact ⟨h.1, ih h.2 i⟩

theorem failedVerification_spec (h : Sound S co) (slot : KeySlot) :
    Sound S (co.failedVerification slot) ∧ SameIds co (co.failedVerification slot) := by
  have hfails : ∀ first ctx e, Holds S.C S.key_type first ctx e →
      Holds S.C S.key_type first { ctx with failed_verifications := ctx.failed_verifications + 1 } e :=
    fun _ _ _ hctx => ⟨hctx.cipher, hctx.implicit_iv, hctx.epoch⟩
  cases slot with
  | decrypt =>
      exact ⟨⟨h.type, h.send_key, h.send, h.send_le, h.recv_key, hfails _ _ _ h.recv, h.recv_pos, h.recv_le, h.future,
        h.count,
        h.retiring, h.ahead⟩, ⟨rfl, rfl, rfl, rfl, rfl, rfl⟩⟩
  | retiring =>
      exact ⟨⟨h.type, h.send_key, h.send, h.send_le, h.recv_key, h.recv, h.recv_pos, h.recv_le, h.future, h.count,
        fun hne => ⟨hfails _ _ _ (h.retiring hne).1, (h.retiring hne).2⟩, h.ahead⟩, ⟨rfl, rfl, rfl, rfl, rfl, rfl⟩⟩
  | future index =>
      exact ⟨⟨h.type, h.send_key, h.send, h.send_le, h.recv_key, h.recv, h.recv_pos, h.recv_le,
        h.future.modify (hfails _) index, (List.length_modify _ _ _).trans h.count, h.retiring, h.ahead⟩,
        ⟨rfl, rfl, rfl, rfl, rfl, rfl⟩⟩

theorem lookupKey_spec {slot : KeySlot} (h : Sound S co) (hslot : lookupKey buf co = some slot) :
    (packet_id_read_epoch buf).1 ≠ 0 ∧ Usable S co (packet_id_read_epoch buf).1 ∧
      Holds S.C S.key_type S.e1_recv (co.key slot) (packet_id_read_epoch buf).1 := by
  unfold lookupKey at hslot
  split_ifs at hslot with hshort
  simp only at hslot
  split_ifs at hslot with hzero
  obtain ⟨hfound, -⟩ := Option.filter_eq_some_iff.mp hslot
  exact ⟨hzero, h.lookup_isSome_iff.mp (by rw [hfound]; rfl), h.lookup_holds hfound⟩

/-- An authentic packet has been opened with the key of its epoch. -/
theorem authentic_eq (opcode buf : List UInt8) (h : Sound S co) :
    authentic S.C opcode buf co = (lookupKey buf co).bind fun _ =>
    let key := epoch_data_key_derive S.C (epochKey S.C S.e1_recv (packet_id_read_epoch buf).1) S.key_type
    openPacket S.C key.cipher key.hmac opcode buf := by
  unfold authentic
  cases hslot : lookupKey buf co with
  | none => rfl
  | some slot =>
      obtain ⟨-, -, hholds⟩ := lookupKey_spec h hslot
      rw [Option.bind_some, Option.bind_some, hholds.cipher, hholds.implicit_iv]
      rfl

/-- A packet that is not authentic changes no packet ids; the others are checked. -/
theorem decrypt_cases (now : Int) (opcode buf : List UInt8) (h : Sound S co) :
    (authentic S.C opcode buf co = none ∧ ∃ co', openvpn_decrypt_aead S.C now opcode buf co = some (none, co') ∧
      Sound S co' ∧ SameIds co co') ∨
    ∃ data final, authentic S.C opcode buf co = some (data, final) ∧ (packet_id_read_epoch buf).1 ≠ 0 ∧
      Usable S co (packet_id_read_epoch buf).1 ∧ openvpn_decrypt_aead S.C now opcode buf co =
        (crypto_check_replay S.C now (packet_id_read_epoch buf).2 (packet_id_read_epoch buf).1 co).map
          (takeText data final) := by
  unfold openvpn_decrypt_aead authentic
  rw [h.recv.cipher, Option.isNone_some, if_neg Bool.false_ne_true]
  cases hslot : lookupKey buf co with
  | none => exact .inl ⟨rfl, co, rfl, h, ⟨rfl, rfl, rfl, rfl, rfl, rfl⟩⟩
  | some slot =>
      obtain ⟨hzero, husable, hholds⟩ := lookupKey_spec h hslot
      simp only [hholds.cipher, Option.bind_some]
      cases hopen : openPacket S.C (epoch_data_key_derive S.C (epochKey S.C S.e1_recv (packet_id_read_epoch buf).1)
          S.key_type).cipher (co.key slot).implicit_iv opcode buf with
      | none =>
          obtain ⟨hsound, hsame⟩ := failedVerification_spec h slot
          exact .inl ⟨rfl, _, rfl, hsound, hsame⟩
      | some opened => exact .inr ⟨opened.1, opened.2, rfl, hzero, husable, rfl⟩

/-! ## What has been opened -/

/-- The packet ids of an epoch among the packets that have been taken. -/
def pinsOf (e : Nat) (opened : List Opened) : List PacketIdNet :=
  (opened.filter (·.epoch = e)).map fun o => ⟨o.id, 0⟩

/-- The receivers know the packets of their epochs, and no packet has been taken twice. -/
structure Recorded (co : CryptoOptions) (opened : List Opened) : Prop where
  nodup : (opened.map fun o => (o.epoch, o.id)).Nodup
  le : ∀ o ∈ opened, o.epoch ≤ co.decrypt.epoch
  current : Knows co.pid_rec (pinsOf co.decrypt.epoch opened)
  retiring : co.epoch_retiring_data_receive_key.epoch ≠ 0 →
    Knows co.epoch_retiring_key_pid_recv (pinsOf co.epoch_retiring_data_receive_key.epoch opened)

theorem knows_check (pin : PacketIdNet) {q : PacketIdRec} {pins : List PacketIdNet} (h : Knows q pins)
    (hclock : SEQ_EXPIRED < now) : if (check_replay now pin q).1 then
      pin ∉ pins ∧ Knows (check_replay now pin q).2 (pin :: pins) else Knows (check_replay now pin q).2 pins := by
  have hreaped := h.reap_test now
  by_cases htest : packet_id_test pin (packet_id_reap_test now q) = true
  · rw [check_replay_taken htest, if_pos rfl]
    exact hreaped.add hclock htest
  · rw [check_replay_refused htest, if_neg Bool.false_ne_true]
    exact hreaped

theorem pinsOf_self {text : List UInt8} : pinsOf e (⟨e, id, text⟩ :: opened) = ⟨id, 0⟩ :: pinsOf e opened := by
  simp [pinsOf]

theorem pinsOf_other {o : Opened} (hne : o.epoch ≠ e) : pinsOf e (o :: opened) = pinsOf e opened := by
  simp [pinsOf, hne]

theorem nodup_cons_opened {text : List UInt8} (hnodup : (opened.map fun o => (o.epoch, o.id)).Nodup)
    (hfresh : ⟨id, 0⟩ ∉ pinsOf e opened) : ((⟨e, id, text⟩ :: opened).map fun o => (o.epoch, o.id)).Nodup := by
  refine List.nodup_cons.mpr ⟨fun hmem => hfresh ?_, hnodup⟩
  obtain ⟨o, ho, heq⟩ := List.mem_map.mp hmem
  obtain ⟨hepoch, hid⟩ := Prod.mk.inj heq
  exact List.mem_map.mpr ⟨o, List.mem_filter.mpr ⟨ho, decide_eq_true hepoch⟩, by rw [hid]⟩

namespace Recorded

theorem same (h : Recorded co opened) (hsame : SameIds co co') : Recorded co' opened := by
  refine ⟨h.nodup, ?_, ?_, ?_⟩
  · rw [hsame.decrypt]
    exact h.le
  · rw [hsame.decrypt, hsame.pid_rec]
    exact h.current
  · rw [hsame.retiring, hsame.pid_retiring]
    exact h.retiring

theorem sent (h : Recorded co opened) (hsame : SameReceiver co co') : Recorded co' opened := by
  refine ⟨h.nodup, ?_, ?_, ?_⟩
  · rw [hsame.decrypt]
    exact h.le
  · rw [hsame.decrypt, hsame.pid_rec]
    exact h.current
  · rw [hsame.retiring, hsame.pid_retiring]
    exact h.retiring

/-- No packet of a later epoch has been taken. -/
theorem replaced (h : Recorded co opened) (hlt : co.decrypt.epoch < n) (hr : Replaced co n co') :
    Recorded co' opened := by
  refine ⟨h.nodup, fun o ho => ?_, ?_, fun _ => ?_⟩
  · rw [hr.decrypt]
    exact (h.le o ho).trans hlt.le
  · have hnone : pinsOf n opened = [] := by
      refine List.map_eq_nil_iff.mpr (List.filter_eq_nil_iff.mpr fun o ho => ?_)
      have hle := h.le o ho
      rw [decide_eq_true_eq]
      omega
    rw [hr.decrypt, hr.pid_rec, hnone]
    exact knows_init
  · rw [hr.retiring, hr.pid_retiring]
    exact h.current

/-- A packet of the epoch that is in use. -/
theorem check_current {text : List UInt8} (h : Recorded co opened) (hclock : SEQ_EXPIRED < now)
    (hne : co.epoch_retiring_data_receive_key.epoch ≠ co.decrypt.epoch) :
    Recorded (checkCurrent now ⟨id, 0⟩ co).2
      (if (checkCurrent now ⟨id, 0⟩ co).1 then ⟨co.decrypt.epoch, id, text⟩ :: opened else opened) := by
  have hknows := knows_check ⟨id, 0⟩ h.current hclock
  by_cases htaken : (checkCurrent now ⟨id, 0⟩ co).1 = true
  · rw [if_pos (show (check_replay now ⟨id, 0⟩ co.pid_rec).1 = true from htaken)] at hknows
    rw [if_pos htaken]
    refine ⟨nodup_cons_opened h.nodup hknows.1, ?_, ?_, fun hretiring => ?_⟩
    · exact List.forall_mem_cons.mpr ⟨le_refl co.decrypt.epoch, h.le⟩
    · exact pinsOf_self.symm ▸ hknows.2
    · rw [pinsOf_other hne.symm]
      exact h.retiring hretiring
  · rw [if_neg (show ¬ (check_replay now ⟨id, 0⟩ co.pid_rec).1 = true from htaken)] at hknows
    rw [if_neg htaken]
    exact ⟨h.nodup, h.le, hknows, h.retiring⟩

/-- A packet of the epoch before. -/
theorem check_retiring {text : List UInt8} (h : Recorded co opened) (hclock : SEQ_EXPIRED < now)
    (hretiring : co.epoch_retiring_data_receive_key.epoch ≠ 0)
    (hlt : co.epoch_retiring_data_receive_key.epoch < co.decrypt.epoch) :
    Recorded { co with epoch_retiring_key_pid_recv := (check_replay now ⟨id, 0⟩ co.epoch_retiring_key_pid_recv).2 }
      (if (check_replay now ⟨id, 0⟩ co.epoch_retiring_key_pid_recv).1 then
        ⟨co.epoch_retiring_data_receive_key.epoch, id, text⟩ :: opened else opened) := by
  have hknows := knows_check ⟨id, 0⟩ (h.retiring hretiring) hclock
  by_cases htaken : (check_replay now ⟨id, 0⟩ co.epoch_retiring_key_pid_recv).1 = true
  · rw [if_pos htaken] at hknows ⊢
    refine ⟨nodup_cons_opened h.nodup hknows.1, ?_, ?_, fun _ => ?_⟩
    · exact List.forall_mem_cons.mpr ⟨hlt.le, h.le⟩
    · rw [pinsOf_other hlt.ne]
      exact h.current
    · rw [pinsOf_self]
      exact hknows.2
  · rw [if_neg htaken] at hknows ⊢
    exact ⟨h.nodup, h.le, h.current, fun _ => hknows⟩

end Recorded

/-! ## The highest id that has been taken -/

/-- The receiver has a list of sequence numbers, and its highest id has been taken. -/
structure Topped (co : CryptoOptions) (opened : List Opened) : Prop where
  listed : co.pid_rec.seq_list.isSome
  backtrack : 0 < co.pid_rec.seq_backtrack
  time : co.pid_rec.time = 0
  top : co.pid_rec.id = 0 ∨ ∃ o ∈ opened, o.epoch = co.decrypt.epoch ∧ o.id = co.pid_rec.id

/-- A higher id is taken, and the highest one is raised by taken ids only. -/
theorem check_listed (now : Int) (id : Nat) {q : PacketIdRec} (hlisted : q.seq_list.isSome) (htime : q.time = 0) :
    (check_replay now ⟨id, 0⟩ q).2.seq_list.isSome ∧ (check_replay now ⟨id, 0⟩ q).2.seq_backtrack = q.seq_backtrack ∧
      (check_replay now ⟨id, 0⟩ q).2.time = 0 ∧
      ((check_replay now ⟨id, 0⟩ q).2.id = q.id ∨
        (check_replay now ⟨id, 0⟩ q).1 = true ∧ (check_replay now ⟨id, 0⟩ q).2.id = id) ∧
      (q.id < id → (check_replay now ⟨id, 0⟩ q).1 = true) := by
  have hreaped : (packet_id_reap_test now q).seq_list.isSome ∧ (packet_id_reap_test now q).time = 0 ∧
      (packet_id_reap_test now q).id = q.id := by
    unfold packet_id_reap_test packet_id_reap
    split_ifs <;> simp [hlisted, htime]
  obtain ⟨hlisted', htime', hid'⟩ := hreaped
  obtain ⟨l, hl⟩ := Option.isSome_iff_exists.mp hlisted'
  by_cases htest : packet_id_test ⟨id, 0⟩ (packet_id_reap_test now q) = true
  · rw [check_replay_taken htest]
    refine ⟨?_, by simp, ?_, ?_, fun _ => rfl⟩
    · simp [packet_id_add, hl]
    · simp only [packet_id_add, hl]
      split_ifs <;> simp [htime']
    · simp only [packet_id_add, hl, true_and]
      split_ifs <;> simp only <;> omega
  · rw [check_replay_refused htest]
    refine ⟨hlisted', by simp, htime', .inl hid', fun hlt => absurd ?_ htest⟩
    simp [packet_id_test, hl, htime', hid', hlt, Nat.ne_zero_of_lt hlt]

namespace Topped

theorem same (h : Topped co opened) (hsame : SameIds co co') : Topped co' opened := by
  refine ⟨?_, ?_, ?_, ?_⟩ <;> rw [hsame.pid_rec]
  · exact h.listed
  · exact h.backtrack
  · exact h.time
  · rw [hsame.decrypt]
    exact h.top

theorem sent (h : Topped co opened) (hsame : SameReceiver co co') : Topped co' opened := by
  refine ⟨?_, ?_, ?_, ?_⟩ <;> rw [hsame.pid_rec]
  · exact h.listed
  · exact h.backtrack
  · exact h.time
  · rw [hsame.decrypt]
    exact h.top

theorem of_init {seq_backtrack : Nat} {time_backtrack : Int} (hpos : 0 < seq_backtrack)
    (hrec : co.pid_rec = packet_id_init_recv seq_backtrack time_backtrack) : Topped co opened := by
  rw [packet_id_init_recv, dif_pos hpos] at hrec
  refine ⟨?_, ?_, ?_, .inl ?_⟩ <;> rw [hrec]
  · rfl
  · exact hpos

theorem check_current {text : List UInt8} (h : Topped co opened) : Topped (checkCurrent now ⟨id, 0⟩ co).2
    (if (checkCurrent now ⟨id, 0⟩ co).1 then ⟨co.decrypt.epoch, id, text⟩ :: opened else opened) := by
  obtain ⟨hlisted, hbacktrack, htime, hid, -⟩ := check_listed now id h.listed h.time
  refine ⟨hlisted, hbacktrack.symm ▸ h.backtrack, htime, ?_⟩
  rcases hid with hsame | ⟨htaken, hid⟩
  · refine h.top.imp (fun hzero => hsame.trans hzero) fun hseen => ?_
    obtain ⟨o, ho, hepoch, hid⟩ := hseen
    refine ⟨o, ?_, hepoch, hid.trans hsame.symm⟩
    split_ifs
    · exact List.mem_cons_of_mem _ ho
    · exact ho
  · refine .inr ⟨⟨co.decrypt.epoch, id, text⟩, ?_, rfl, hid.symm⟩
    rw [if_pos (show (checkCurrent now ⟨id, 0⟩ co).1 = true from htaken)]
    exact List.mem_cons_self

end Topped

/-! ## The check of an opened packet -/

theorem checkCurrent_sound {pin : PacketIdNet} (h : Sound S co) : Sound S (checkCurrent now pin co).2 :=
  ⟨h.type, h.send_key, h.send, h.send_le, h.recv_key, h.recv, h.recv_pos, h.recv_le, h.future, h.count, h.retiring,
    h.ahead⟩

theorem addBlocks_sound (h : Sound S co) : Sound S { co with decrypt := co.decrypt.addBlocks n } :=
  ⟨h.type, h.send_key, h.send, h.send_le, h.recv_key, ⟨h.recv.cipher, h.recv.implicit_iv, h.recv.epoch⟩, h.recv_pos,
    h.recv_le, h.future, h.count, h.retiring, h.ahead⟩

/-- What the check of an opened packet leaves. -/
structure Checked (S : Setup) (now : Int) (e id : Nat) (text : List UInt8) (opened : List Opened) (co : CryptoOptions)
    (checked : Bool × CryptoOptions) : Prop where
  sound : Sound S checked.2
  recorded : SEQ_EXPIRED < now → Recorded co opened →
    Recorded checked.2 (if checked.1 then ⟨e, id, text⟩ :: opened else opened)
  topped : Topped co opened → Topped checked.2 (if checked.1 then ⟨e, id, text⟩ :: opened else opened)
  current : Topped co opened → e = co.decrypt.epoch → co.pid_rec.id < id → checked.1 = true
  later : Topped co opened → co.decrypt.epoch < e → 0 < id → checked.1 = true
  position : position co ≤ position checked.2
  id_le : checked.2.pid_send.id ≤ PACKET_ID_EPOCH_MAX
  epoch : checked.2.decrypt.epoch = co.decrypt.epoch ∨ checked.2.decrypt.epoch = e

theorem Sound.retiring_ne (h : Sound S co) : co.epoch_retiring_data_receive_key.epoch ≠ co.decrypt.epoch := by
  intro heq
  exact absurd (heq ▸ (h.retiring (heq ▸ h.recv_pos.ne')).2) (lt_irrefl _)

theorem checked_current (now : Int) (id : Nat) (h : Sound S co) (hid : co.pid_send.id ≤ PACKET_ID_EPOCH_MAX)
    (text : List UInt8) (opened : List Opened) :
    Checked S now co.decrypt.epoch id text opened co (checkCurrent now ⟨id, 0⟩ co) where
  sound := checkCurrent_sound h
  recorded hclock hr := hr.check_current hclock h.retiring_ne
  topped := Topped.check_current
  current ht _ hlt := (check_listed now id ht.listed ht.time).2.2.2.2 hlt
  later _ hlt := absurd hlt (lt_irrefl _)
  position := le_refl _
  id_le := hid
  epoch := .inl rfl

/-- The window of the retiring key is the one that is checked. -/
theorem checked_retiring (now : Int) (id : Nat) (h : Sound S co) (hid : co.pid_send.id ≤ PACKET_ID_EPOCH_MAX)
    (hzero : co.epoch_retiring_data_receive_key.epoch ≠ 0) (text : List UInt8) (opened : List Opened) :
    ∃ checked, crypto_check_replay S.C now ⟨id, 0⟩ co.epoch_retiring_data_receive_key.epoch co = some checked ∧
      Checked S now co.epoch_retiring_data_receive_key.epoch id text opened co checked := by
  have hlt := (h.retiring hzero).2
  unfold crypto_check_replay
  rw [if_neg (by rintro (hz | heq); exacts [hzero hz, h.retiring_ne heq.symm]), if_pos rfl]
  refine ⟨_, rfl, ?_⟩
  constructor
  case sound =>
    exact ⟨h.type, h.send_key, h.send, h.send_le, h.recv_key, h.recv, h.recv_pos, h.recv_le, h.future, h.count,
      h.retiring, h.ahead⟩
  case recorded => exact fun hclock hr => hr.check_retiring hclock hzero hlt
  case topped =>
    refine fun ht => ⟨ht.listed, ht.backtrack, ht.time, ht.top.imp_right ?_⟩
    rintro ⟨o, ho, hseen⟩
    refine ⟨o, ?_, hseen⟩
    split_ifs
    · exact List.mem_cons_of_mem _ ho
    · exact ho
  case current => exact fun _ heq => absurd heq hlt.ne
  case later => exact fun _ hlater => absurd hlater hlt.not_gt
  case position => exact le_refl _
  case id_le => exact hid
  case epoch => exact .inl rfl

/-- A packet with one of the next keys makes it the key in use, with a window of its own. -/
theorem checked_next {next : CryptoOptions} (now : Int) (id : Nat) (hid : co.pid_send.id ≤ PACKET_ID_EPOCH_MAX)
    (hlt : co.decrypt.epoch < e) (hsound : Sound S next) (hreplaced : Replaced co e next) (text : List UInt8)
    (opened : List Opened) : Checked S now e id text opened co (checkCurrent now ⟨id, 0⟩ next) := by
  constructor
  case sound => exact checkCurrent_sound hsound
  case recorded =>
    intro hclock hr
    rw [← hreplaced.decrypt]
    exact (hr.replaced hlt hreplaced).check_current hclock hsound.retiring_ne
  case topped =>
    intro ht
    rw [← hreplaced.decrypt]
    exact (Topped.of_init ht.backtrack hreplaced.pid_rec).check_current
  case current => exact fun _ heq => absurd heq hlt.ne'
  case later =>
    intro ht _ hpos
    have hnew : Topped next opened := Topped.of_init ht.backtrack hreplaced.pid_rec
    refine (check_listed now id hnew.listed hnew.time).2.2.2.2 ?_
    rw [hreplaced.pid_rec, packet_id_init_recv, dif_pos ht.backtrack]
    exact hpos
  case position =>
    simp only [checkCurrent, Epoch.position]
    rcases hreplaced.send with ⟨hbehind, hepoch, hpid⟩ | ⟨-, hencrypt, hpid⟩
    · rw [hepoch, hpid]
      rw [PACKET_ID_EPOCH_MAX] at *
      simp only
      omega
    · rw [hencrypt, hpid]
  case id_le =>
    simp only [checkCurrent]
    rcases hreplaced.send with ⟨-, -, hpid⟩ | ⟨-, -, hpid⟩
    · rw [hpid]
      exact Nat.zero_le _
    · rwa [hpid]
  case epoch => exact .inr hreplaced.decrypt

/-- What the check of an opened packet does: the packet with the last one of the next keys makes it fail. -/
theorem check_cases (now : Int) (id : Nat) (h : Sound S co) (hid : co.pid_send.id ≤ PACKET_ID_EPOCH_MAX) (hzero : e ≠ 0)
    (husable : Usable S co e) (text : List UInt8) (opened : List Opened) :
    (e = co.decrypt.epoch + S.future_key_count ∧ crypto_check_replay S.C now ⟨id, 0⟩ e co = none) ∨
    e ≠ co.decrypt.epoch + S.future_key_count ∧ ∃ checked, crypto_check_replay S.C now ⟨id, 0⟩ e co = some checked ∧
      Checked S now e id text opened co checked := by
  have hcount := S.count_pos
  by_cases hcurrent : co.decrypt.epoch = e
  · subst hcurrent
    exact .inr ⟨by omega, _, if_pos (.inr rfl), checked_current now id h hid text opened⟩
  · by_cases hbefore : e = co.epoch_retiring_data_receive_key.epoch
    · subst hbefore
      have hlt := (h.retiring hzero).2
      exact .inr ⟨by omega, checked_retiring now id h hid hzero text opened⟩
    · unfold crypto_check_replay
      rw [if_neg (by rintro (hz | heq); exacts [hzero hz, hcurrent heq]), if_neg hbefore]
      obtain ⟨hlt, hle, hlimit⟩ := (husable.resolve_left (Ne.symm hcurrent)).resolve_left fun hr => hbefore hr.2
      by_cases hhighest : e = co.decrypt.epoch + S.future_key_count
      · exact .inl ⟨hhighest, by rw [hhighest, h.replace_highest]; rfl⟩
      · obtain ⟨next, hnext, hsound, hreplaced⟩ := h.replace_spec hlt (lt_of_le_of_ne hle hhighest) hlimit
        exact .inr ⟨hhighest, _, by rw [hnext]; rfl, checked_next now id hid hlt hsound hreplaced text opened⟩

end AllInSafe.Epoch
