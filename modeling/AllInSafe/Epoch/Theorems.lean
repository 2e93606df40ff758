import AllInSafe.Epoch.Lemmas.Packets

/-!
# What one side keeps over its runs
-/

namespace AllInSafe.Epoch
open AllInSafe.Library AllInSafe.Replay

variable {S : Setup} {co : CryptoOptions} {now : Int} {opcode buf work : List UInt8} {p p' : Endpoint} {event : Event}

/-! ## Steps of a side -/

/-- What holds of a side, whether it has failed or not. -/
structure Going (S : Setup) (p : Endpoint) : Prop where
  sound : Sound S p.co
  id_le : p.co.pid_send.id ≤ PACKET_ID_EPOCH_MAX
  sealed : ∀ s ∈ p.sealed, SealedWith S s ∧ s.position ≤ position p.co
  sorted : p.sealed.Pairwise fun s t => t.position < s.position

/-- The packet is authentic, and its epoch is as far ahead as there are keys. -/
def Overtakes (S : Setup) (p : Endpoint) : Event → Prop
  | .send _ _ _ => False
  | .receive _ opcode buf => (authentic S.C opcode buf p.co).isSome ∧
      (packet_id_read_epoch buf).1 = p.co.decrypt.epoch + S.future_key_count

instance {S : Setup} {p : Endpoint} : (e : Event) → Decidable (Overtakes S p e)
  | .send _ _ _ => inferInstanceAs (Decidable False)
  | .receive _ _ _ => inferInstanceAs (Decidable (_ ∧ _))

/-- What a side does when it sends. -/
structure Sent (S : Setup) (work buf : List UInt8) (p p' : Endpoint) : Prop where
  going : Going S p'
  failed : p'.failed = false
  opened : p'.opened = p.opened
  position : position p.co ≤ position p'.co
  receiver : SameReceiver p.co p'.co
  sealed : p'.sealed = p.sealed ∨
    ∃ s, SealedWith S s ∧ s.text = buf ∧ s.opcode = work ∧ s.epoch = p'.co.encrypt.epoch ∧ p'.sealed = s :: p.sealed

theorem Going.send (h : Going S p) (hstep : p.step S.C (.send now work buf) = some p') : Sent S work buf p p' := by
  obtain ⟨packet, co', hsome, hsound, hsame, hid, hle, hpacket⟩ :=
    encrypt_cases now work buf h.sound h.id_le
  unfold Endpoint.step at hstep
  split_ifs at hstep with hfailed
  simp only [hsome] at hstep
  cases hstep
  have hkept : ∀ s ∈ p.sealed, SealedWith S s ∧ s.position ≤ position co' :=
    fun s hs => ⟨(h.sealed s hs).1, (h.sealed s hs).2.trans hle⟩
  cases packet with
  | none => exact ⟨⟨hsound, hid, hkept, h.sorted⟩, by simpa using hfailed, rfl, hle, hsame, .inl rfl⟩
  | some s =>
      obtain ⟨hwith, hlt, hposition, hepoch, htext, hopcode⟩ := hpacket s rfl
      refine ⟨⟨hsound, hid, List.forall_mem_cons.mpr ⟨⟨hwith, hposition.le⟩, hkept⟩,
        List.pairwise_cons.mpr ⟨fun t ht => (h.sealed t ht).2.trans_lt hlt, h.sorted⟩⟩, by simpa using hfailed, rfl,
          hle,
        hsame, .inr ⟨s, hwith, htext, hopcode, hepoch, rfl⟩⟩

theorem read_pin : (packet_id_read_epoch buf).2 = ⟨(packet_id_read_epoch buf).2.id, 0⟩ := by
  unfold packet_id_read_epoch
  split_ifs <;> rfl

/-- What a side does with bytes that arrive. -/
structure Received (S : Setup) (now : Int) (opcode buf : List UInt8) (p p' : Endpoint) : Prop where
  going : Going S p'
  sealed : p'.sealed = p.sealed
  position : position p.co ≤ position p'.co
  failed : p'.failed = true ↔ Overtakes S p (.receive now opcode buf)
  recorded : SEQ_EXPIRED < now → Recorded p.co p.opened → Recorded p'.co p'.opened
  topped : Topped p.co p.opened → Topped p'.co p'.opened
  epoch : p'.co.decrypt.epoch = p.co.decrypt.epoch ∨
    (authentic S.C opcode buf p.co).isSome ∧ p'.co.decrypt.epoch = (packet_id_read_epoch buf).1
  opened : p'.opened = p.opened ∨ ∃ data final, authentic S.C opcode buf p.co = some (data, final) ∧
    p'.opened = ⟨(packet_id_read_epoch buf).1, (packet_id_read_epoch buf).2.id, data ++ final⟩ :: p.opened
  stays : Overtakes S p (.receive now opcode buf) → p'.opened = p.opened
  newer : ∀ data final, authentic S.C opcode buf p.co = some (data, final) → Topped p.co p.opened →
    ¬ Overtakes S p (.receive now opcode buf) →
    ((packet_id_read_epoch buf).1 = p.co.decrypt.epoch ∧ p.co.pid_rec.id < (packet_id_read_epoch buf).2.id ∨
      p.co.decrypt.epoch < (packet_id_read_epoch buf).1 ∧ 0 < (packet_id_read_epoch buf).2.id) →
    p'.opened = ⟨(packet_id_read_epoch buf).1, (packet_id_read_epoch buf).2.id, data ++ final⟩ :: p.opened

/-- The bytes are not authentic. -/
theorem Received.of_unauthentic (h : Going S p) (hfailed : p.failed = false)
    (hnone : authentic S.C opcode buf p.co = none) (hsound : Sound S co') (hsame : SameIds p.co co') :
    Received S now opcode buf p { p with co := co' } := by
  have hposition : Epoch.position co' = Epoch.position p.co := by
    rw [Epoch.position, Epoch.position, hsame.encrypt, hsame.pid_send]
  have hnot : ¬ Overtakes S p (.receive now opcode buf) := by
    intro hover
    rw [Overtakes, hnone] at hover
    cases hover.1
  exact {
    going := ⟨hsound, by rw [hsame.pid_send]; exact h.id_le, by rw [hposition]; exact h.sealed, h.sorted⟩
    sealed := rfl
    position := hposition.ge
    failed := by simp [hfailed, hnot]
    recorded := fun _ hr => hr.same hsame
    topped := fun ht => ht.same hsame
    epoch := .inl hsame.decrypt
    opened := .inl rfl
    stays := fun _ => rfl
    newer := fun _ _ hauthentic => by rw [hnone] at hauthentic; cases hauthentic }

/-- An assertion fails. -/
theorem Received.of_failed (h : Going S p) (hover : Overtakes S p (.receive now opcode buf)) :
    Received S now opcode buf p { p with failed := true } where
  going := ⟨h.sound, h.id_le, h.sealed, h.sorted⟩
  sealed := rfl
  position := le_refl _
  failed := by simp [hover]
  recorded _ hr := hr
  topped := id
  epoch := .inl rfl
  opened := .inl rfl
  stays _ := rfl
  newer _ _ _ _ hnot := absurd hover hnot

/-- The bytes have been opened and checked. -/
theorem Received.of_checked {data final : List UInt8} {checked : Bool × CryptoOptions} (h : Going S p)
    (hfailed : p.failed = false) (hsome : authentic S.C opcode buf p.co = some (data, final))
    (hother : (packet_id_read_epoch buf).1 ≠ p.co.decrypt.epoch + S.future_key_count)
    (hchecked : Checked S now (packet_id_read_epoch buf).1 (packet_id_read_epoch buf).2.id (data ++ final) p.opened p.co
      checked) :
    Received S now opcode buf p
      { p with
        co := (takeText data final checked).2
        opened := ((takeText data final checked).1.map fun text =>
          ⟨(packet_id_read_epoch buf).1, (packet_id_read_epoch buf).2.id, text⟩).toList ++ p.opened } := by
  obtain ⟨hsound, hrecorded, htopped, hsame, hlater, hle, hid, hepoch⟩ := hchecked
  have hkept : ∀ s ∈ p.sealed, SealedWith S s ∧ s.position ≤ Epoch.position checked.2 :=
    fun s hs => ⟨(h.sealed s hs).1, (h.sealed s hs).2.trans hle⟩
  have hnot : ¬ Overtakes S p (.receive now opcode buf) := fun hover => hother hover.2
  have hepoch' : checked.2.decrypt.epoch = p.co.decrypt.epoch ∨
      (authentic S.C opcode buf p.co).isSome ∧ checked.2.decrypt.epoch = (packet_id_read_epoch buf).1 :=
    hepoch.imp_right fun heq => ⟨by rw [hsome]; rfl, heq⟩
  by_cases htaken : checked.1 = true
  · rw [if_pos htaken] at hrecorded htopped
    simp only [takeText, if_pos htaken]
    exact {
      going := ⟨addBlocks_sound hsound, hid, hkept, h.sorted⟩
      sealed := rfl
      position := hle
      failed := by simp [hfailed, hnot]
      recorded := fun hclock hr =>
        ⟨(hrecorded hclock hr).nodup, (hrecorded hclock hr).le, (hrecorded hclock hr).current,
          (hrecorded hclock hr).retiring⟩
      topped := fun ht => ⟨(htopped ht).listed, (htopped ht).backtrack, (htopped ht).time, (htopped ht).top⟩
      epoch := hepoch'
      opened := .inr ⟨data, final, hsome, rfl⟩
      stays := fun hover => absurd hover hnot
      newer := fun data' final' hauthentic _ _ _ => by rw [hsome] at hauthentic; cases hauthentic; rfl }
  · rw [if_neg htaken] at hrecorded htopped
    simp only [takeText, if_neg htaken]
    exact {
      going := ⟨hsound, hid, hkept, h.sorted⟩
      sealed := rfl
      position := hle
      failed := by simp [hfailed, hnot]
      recorded := hrecorded
      topped := htopped
      epoch := hepoch'
      opened := .inl rfl
      stays := fun _ => rfl
      newer := fun _ _ _ ht _ hnewer => by
        rcases hnewer with ⟨heq, hlt⟩ | ⟨hlt, hpos⟩
        · exact absurd (hsame ht heq hlt) htaken
        · exact absurd (hlater ht hlt hpos) htaken }

theorem Going.receive (h : Going S p) (hstep : p.step S.C (.receive now opcode buf) = some p') :
    Received S now opcode buf p p' := by
  unfold Endpoint.step at hstep
  split_ifs at hstep with hfailed
  rw [Bool.not_eq_true] at hfailed
  rcases decrypt_cases now opcode buf h.sound with
    ⟨hnone, co', hsome, hsound, hsame⟩ | ⟨data, final, hsome, hzero, husable, hchecked⟩
  · simp only [hsome] at hstep
    cases hstep
    exact .of_unauthentic h hfailed hnone hsound hsame
  · rw [read_pin] at hchecked
    rcases check_cases now (packet_id_read_epoch buf).2.id h.sound h.id_le hzero husable (data ++ final) p.opened with
      ⟨hhighest, hnone⟩ | ⟨hother, checked, hcheck, hspec⟩
    · rw [hnone, Option.map_none] at hchecked
      simp only [hchecked] at hstep
      cases hstep
      exact .of_failed h ⟨by rw [hsome]; rfl, hhighest⟩
    · rw [hcheck, Option.map_some] at hchecked
      simp only [hchecked] at hstep
      cases hstep
      exact .of_checked h hfailed hsome hother hspec

/-! ## Runs of a side -/

theorem going_init (S : Setup) : ∃ co, S.init = some co ∧ Going S (endpoint S.C co).init ∧
    Recorded (endpoint S.C co).init.co (endpoint S.C co).init.opened ∧ co.decrypt.epoch = 1 ∧
      co.pid_rec = packet_id_init_recv S.seq_backtrack S.time_backtrack := by
  obtain ⟨co, hco, hsound, hone, hretiring, hsend, hrec⟩ := Sound.init S
  refine ⟨co, hco, ⟨hsound, ?_, nofun, List.Pairwise.nil⟩, ⟨List.nodup_nil, nofun, ?_,
    fun hne => absurd hretiring hne⟩, hone, hrec⟩
  · simp only [endpoint, hsend]
    exact Nat.zero_le _
  · simp only [endpoint, hrec]
    exact knows_init

theorem Going.step (h : Going S p) (hstep : p.step S.C event = some p') :
    Going S p' ∧ (p'.failed = true ↔ Overtakes S p event) := by
  cases event with
  | send now work buf =>
      have hsent := h.send hstep
      exact ⟨hsent.going, by simp [hsent.failed, Overtakes]⟩
  | receive now opcode buf =>
      have hreceived := h.receive hstep
      exact ⟨hreceived.going, hreceived.failed⟩

theorem Going.run {es : List Event} (h : Going S p) (hrun : (endpoint S.C co).runFrom p es = some p') : Going S p' :=
  Machine.invariant (I := Going S) (fun _ _ _ hgoing hstep => (hgoing.step hstep).1) h hrun

theorem Going.recorded_run {es : List Event} (h : Going S p) (hr : Recorded p.co p.opened)
    (hclock : ∀ e ∈ es, SEQ_EXPIRED < e.now) (hrun : (endpoint S.C co).runFrom p es = some p') :
    Recorded p'.co p'.opened := by
  induction es generalizing p with
  | nil =>
      cases hrun
      exact hr
  | cons event es ih =>
      obtain ⟨mid, hmid, hrest⟩ := Machine.runFrom_cons.mp hrun
      obtain ⟨hnow, hlater⟩ := List.forall_mem_cons.mp hclock
      refine ih (h.step hmid).1 ?_ hlater hrest
      cases event with
      | send now work buf =>
          have hsent := h.send hmid
          rw [hsent.opened]
          exact hr.sent hsent.receiver
      | receive now opcode buf =>
          exact (h.receive hmid).recorded hnow hr

/-- In every state that a side reaches, a key is found for exactly the epochs that can be opened, and it is the key of the
epoch; packets are sealed with a key whose epoch is not behind that of the receive key. -/
theorem keys_in_step (S : Setup) : ∃ co, S.init = some co ∧
    ∀ es p, (endpoint S.C co).runFrom (endpoint S.C co).init es = some p →
      (∀ e, (epoch_lookup_decrypt_key e p.co).isSome ↔ Usable S p.co e) ∧
      (∀ e slot, epoch_lookup_decrypt_key e p.co = some slot → Holds S.C S.key_type S.e1_recv (p.co.key slot) e) ∧
      Holds S.C S.key_type S.e1_send p.co.encrypt p.co.encrypt.epoch ∧ p.co.decrypt.epoch ≤ p.co.encrypt.epoch := by
  obtain ⟨co, hco, hinit, -⟩ := going_init S
  refine ⟨co, hco, fun es p hrun => ?_⟩
  have hsound := (hinit.run hrun).sound
  exact ⟨fun e => hsound.lookup_isSome_iff, fun e slot hslot => hsound.lookup_holds hslot, hsound.send, hsound.ahead⟩

/-- The assertions of a side hold over a run exactly when no authentic packet arrives whose epoch is as far ahead as there
are keys: the key is found, but it cannot be put into use. -/
theorem no_assertion_fails_iff (S : Setup) : ∃ co, S.init = some co ∧
    ∀ es p, (endpoint S.C co).runFrom (endpoint S.C co).init es = some p →
      ((∀ as bs t, es = as ++ bs → (endpoint S.C co).runFrom (endpoint S.C co).init as = some t → t.failed = false) ↔
        (endpoint S.C co).StepsMeet (fun p e => ¬ Overtakes S p e) (endpoint S.C co).init es) := by
  obtain ⟨co, hco, hinit, -⟩ := going_init S
  refine ⟨co, hco, fun es p hrun => ?_⟩
  refine Machine.always_iff (I := fun p => Going S p ∧ p.failed = false) (P := fun p => p.failed = false)
    (fun p hp => hp.2) (fun p e p' hp hstep => ?_) ⟨hinit, rfl⟩ hrun
  obtain ⟨hgoing, hfailed⟩ := hp.1.step hstep
  rw [← Bool.not_eq_true, hfailed]
  exact ⟨id, fun hnot => ⟨hgoing, hnot⟩⟩

/-- No IV is used twice with the key of an epoch, whatever is sent and received in between. -/
theorem no_nonce_used_twice (S : Setup) : ∃ co, S.init = some co ∧
    ∀ es p, (endpoint S.C co).runFrom (endpoint S.C co).init es = some p →
      (p.sealed.map fun s => (s.epoch, s.iv)).Nodup := by
  obtain ⟨co, hco, hinit, -⟩ := going_init S
  refine ⟨co, hco, fun es p hrun => ?_⟩
  have hgoing := hinit.run hrun
  refine List.pairwise_map.mpr (hgoing.sorted.imp_of_mem fun hs ht hlt heq => ?_)
  exact absurd hlt (SealedWith.position_eq (hgoing.sealed _ hs).1 (hgoing.sealed _ ht).1 heq).not_gt

/-- No packet is taken twice, whatever arrives. -/
theorem no_packet_opened_twice (S : Setup) (es : List Event) (hclock : ∀ e ∈ es, SEQ_EXPIRED < e.now) :
    ∃ co, S.init = some co ∧ ∀ p, (endpoint S.C co).runFrom (endpoint S.C co).init es = some p →
      (p.opened.map fun o => (o.epoch, o.id)).Nodup := by
  obtain ⟨co, hco, hinit, hrecorded, -⟩ := going_init S
  exact ⟨co, hco, fun p hrun => (hinit.recorded_run hrecorded hclock hrun).nodup⟩

/-! ## A cipher that hides nothing -/

def checksum (bytes : List UInt8) : List UInt8 := List.replicate 15 0 ++ [bytes.sum]

def plainCrypto : Crypto where
  hmac key text :=
    List.zipWith (· + ·) ((key ++ List.replicate 32 0).take 32) ((text.reverse ++ List.replicate 32 0).take 32)
  encrypt key iv ad text := ⟨text, [], checksum (key ++ iv ++ ad ++ text)⟩
  decrypt key iv ad data tag := if tag = checksum (key ++ iv ++ ad ++ data) then some (data, []) else none
  length_hmac key text := by simp [SHA256_DIGEST_LENGTH]
  length_tag key iv ad text := by simp [checksum, OPENVPN_AEAD_TAG_LENGTH]
  decrypt_encrypt key iv ad text := by simp

def plainSetup : Setup where
  C := plainCrypto
  key_type := ⟨32, 12, le_refl 12⟩
  aead_usage_limit := 3
  e1_send := ⟨List.replicate 32 1, 1⟩
  e1_recv := ⟨List.replicate 32 1, 1⟩
  future_key_count := 2
  seq_backtrack := 64
  time_backtrack := 15
  send_first := rfl
  recv_first := rfl
  count_pos := Nat.two_pos
  count_le := by simp [UINT16_MAX]

/-- The same packet, which is authentic, arrives twice. -/
def repeated : List Event :=
  let buf := header 1 1 ++ [5] ++ checksum ((epoch_data_key_derive plainCrypto ⟨List.replicate 32 1, 1⟩
    ⟨32, 12, le_refl 12⟩).cipher ++ xorIv (header 1 1) (epoch_data_key_derive plainCrypto ⟨List.replicate 32 1, 1⟩
      ⟨32, 12, le_refl 12⟩).hmac ++ header 1 1 ++ [5])
  [.receive 1000 [] buf, .send 1000 [] [7], .receive 1001 [] buf]

theorem no_packet_opened_twice_repeated : ∃ co, plainSetup.init = some co ∧
    ∀ p, (endpoint plainSetup.C co).runFrom (endpoint plainSetup.C co).init repeated = some p →
      (p.opened.map fun o => (o.epoch, o.id)).Nodup :=
  no_packet_opened_twice plainSetup repeated (by decide)

example : (plainSetup.init.bind fun co => (endpoint plainCrypto co).runFrom (endpoint plainCrypto co).init repeated).map
    (fun p => (p.opened.map (·.text), p.failed)) = some ([[5]], false) := by
  decide +kernel

end AllInSafe.Epoch
