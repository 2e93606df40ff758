import AllInSafe.ControlChannel.Lemmas.Window

/-!
# What holds of both sides and the network
-/

namespace AllInSafe.ControlChannel
open AllInSafe.Library

variable {o : Options} {w w' : World} {s t : Side} {n k : Nat} {ids : List packet_id_type} {m packet : ControlPacket}
  {ks ks' : KeyState} {sid : SessionId} {rel : Reliable} {written written' delivered : List Payload}

/-! ## A packet arrives -/

/-- What a side does with a packet. -/
inductive Receives (sid : SessionId) (packet : ControlPacket) (ks : KeyState) (k : Nat) : KeyState → Prop
  | unreadable (hread : reliable_ack_read packet.body sid = none) : Receives sid packet ks k ks
  | dropped {ack : ReliableAck} {buf : List UInt8} (hread : reliable_ack_read packet.body sid = some (ack, buf))
      (hwhy : packet.opcode ≠ P_ACK_V1 → reliable_can_get ks.rec_reliable = true → ∀ id content,
        reliable_ack_read_packet_id buf = some (id, content) → (k ≤ id.toNat ∧ id.toNat < k + ks.rec_reliable.size ∧
          ks.rec_reliable.room < content.length) ∨ k + ks.rec_reliable.size ≤ id.toNat) :
      Receives sid packet ks k { ks with send_reliable := reliable_send_purge ks.send_reliable ack }
  | repeated {ack : ReliableAck} {buf content : List UInt8} {id : packet_id_type}
      (hread : reliable_ack_read packet.body sid = some (ack, buf)) (hopcode : packet.opcode ≠ P_ACK_V1)
      (hid : reliable_ack_read_packet_id buf = some (id, content))
      (hreplay : id.toNat < k ∨ ∃ h ∈ ks.rec_reliable.held, h.packet_id = id) :
      Receives sid packet ks k { ks with
        send_reliable := reliable_send_purge ks.send_reliable ack
        rec_ack := reliable_ack_acknowledge_packet_id ks.rec_ack id }
  | stored {ack : ReliableAck} {buf content : List UInt8} {id : packet_id_type} {rec_reliable : Reliable}
      (hread : reliable_ack_read packet.body sid = some (ack, buf)) (hopcode : packet.opcode ≠ P_ACK_V1)
      (hid : reliable_ack_read_packet_id buf = some (id, content)) (hwindowed : Windowed rec_reliable k)
      (hheld : rec_reliable.held.Perm (⟨id, packet.opcode, content⟩ :: ks.rec_reliable.held))
      (hroom : rec_reliable.room = ks.rec_reliable.room) (hsize : rec_reliable.size = ks.rec_reliable.size) :
      Receives sid packet ks k { ks with
        send_reliable := reliable_send_purge ks.send_reliable ack
        rec_reliable := rec_reliable
        rec_ack := reliable_ack_acknowledge_packet_id ks.rec_ack id }

theorem wont_break_iff (hwin : Windowed ks.rec_reliable k) (hmax : k ≤ PACKETS_MAX) {id : packet_id_type} :
    reliable_wont_break_sequentiality ks.rec_reliable id = true ↔ id.toNat < k + ks.rec_reliable.size := by
  have hbase : ks.rec_reliable.packet_id.toNat = k := hwin.next ▸ toNat_of_le hmax
  have hextent : ks.rec_reliable.extent.toNat = ks.rec_reliable.size := extent_toNat
  have hsize : ks.rec_reliable.size ≤ 12 := ks.rec_reliable.size_le
  have hhalf : PACKETS_MAX = 2 ^ 31 := rfl
  have hnowrap : ks.rec_reliable.packet_id + ks.rec_reliable.extent ≥ ks.rec_reliable.packet_id := by
    rw [ge_iff_le, BitVec.le_def, BitVec.toNat_add]
    omega
  unfold reliable_wont_break_sequentiality reliable_pid_in_range2
  rw [if_pos hnowrap, decide_eq_true_eq, BitVec.lt_def, BitVec.toNat_add, hbase, hextent]
  omega

/-- No assertion fails, whatever arrives. -/
theorem receive_control_receives (hwin : Windowed ks.rec_reliable k) (hmax : k ≤ PACKETS_MAX) :
    ∃ ks', receive_control sid packet ks = some ks' ∧ Receives sid packet ks k ks' := by
  unfold receive_control
  cases hread : reliable_ack_read packet.body sid with
  | none => exact ⟨ks, rfl, .unreadable hread⟩
  | some r =>
      obtain ⟨ack, buf⟩ := r
      simp only
      by_cases hget : packet.opcode ≠ P_ACK_V1 ∧ reliable_can_get ks.rec_reliable = true
      · rw [if_pos hget]
        obtain ⟨hopcode, hfree⟩ := hget
        cases hid : reliable_ack_read_packet_id buf with
        | none => exact ⟨_, rfl, .dropped hread fun _ _ id content h => by simp [hid] at h⟩
        | some r =>
            obtain ⟨id, content⟩ := r
            simp only
            by_cases hbreak : reliable_wont_break_sequentiality ks.rec_reliable id = true
            · rw [if_pos hbreak]
              by_cases hreplay : reliable_not_replay ks.rec_reliable id = true
              · rw [if_pos hreplay]
                obtain ⟨i, hi⟩ := reliable_get_buf_of_can_get hfree
                rw [hi]
                simp only
                by_cases hroom : content.length ≤ ks.rec_reliable.room
                · rw [if_pos hroom]
                  obtain ⟨rel', hmark, hwindowed, hheld, hroom', hsize⟩ :=
                    hwin.accept content packet.opcode hmax hi hbreak hreplay
                  rw [hmark]
                  exact ⟨_, rfl, .stored hread hopcode hid hwindowed hheld hroom' hsize⟩
                · rw [if_neg hroom]
                  refine ⟨_, rfl, .dropped hread fun _ _ id' content' h => .inl ?_⟩
                  cases hid.symm.trans h
                  obtain ⟨⟨hle, hlt⟩, -⟩ := (hwin.checks_iff hmax).mp ⟨hbreak, hreplay⟩
                  exact ⟨hle, hlt, not_le.mp hroom⟩
              · rw [if_neg hreplay]
                refine ⟨_, rfl, .repeated hread hopcode hid ?_⟩
                by_contra hnew
                rw [not_or, not_lt, not_exists] at hnew
                refine hreplay ((hwin.checks_iff hmax).mpr ⟨⟨hnew.1, (wont_break_iff hwin hmax).mp hbreak⟩, ?_⟩).2
                exact fun h hh heq => hnew.2 h ⟨hh, heq⟩
            · rw [if_neg hbreak]
              refine ⟨_, rfl, .dropped hread fun _ _ id' content' h => .inr ?_⟩
              cases hid.symm.trans h
              exact not_lt.mp fun hlt => hbreak ((wont_break_iff hwin hmax).mpr hlt)
      · rw [if_neg hget]
        exact ⟨_, rfl, .dropped hread fun hopcode hfree => absurd ⟨hopcode, hfree⟩ hget⟩

variable {ack : ReliableAck} {buf content : List UInt8} {id : packet_id_type}

theorem Receives.purges (h : Receives sid packet ks k ks')
    (hread : reliable_ack_read packet.body sid = some (ack, buf)) :
    ks'.send_reliable = reliable_send_purge ks.send_reliable ack := by
  cases h with
  | unreadable hnone => cases hnone.symm.trans hread
  | dropped hsame _ => cases hsame.symm.trans hread; rfl
  | repeated hsame _ _ _ => cases hsame.symm.trans hread; rfl
  | stored hsame _ _ _ _ _ _ => cases hsame.symm.trans hread; rfl

/-- A packet that a side is waiting for, or has already, is acknowledged. -/
theorem Receives.acknowledges (h : Receives sid packet ks k ks')
    (hread : reliable_ack_read packet.body sid = some (ack, buf)) (hopcode : packet.opcode ≠ P_ACK_V1)
    (hid : reliable_ack_read_packet_id buf = some (id, content)) (hfree : reliable_can_get ks.rec_reliable = true)
    (hnear : id.toNat < k + ks.rec_reliable.size) (hroom : content.length ≤ ks.rec_reliable.room) :
    ks'.rec_ack = reliable_ack_acknowledge_packet_id ks.rec_ack id := by
  cases h with
  | unreadable hnone => cases hnone.symm.trans hread
  | dropped hsame hwhy =>
      cases hsame.symm.trans hread
      rcases hwhy hopcode hfree id content hid with ⟨-, -, hlarge⟩ | hfar <;> omega
  | repeated hsame _ hid' _ =>
      cases hsame.symm.trans hread
      cases hid'.symm.trans hid
      rfl
  | stored hsame _ hid' _ _ _ _ =>
      cases hsame.symm.trans hread
      cases hid'.symm.trans hid
      rfl

/-! ## The invariant -/

namespace World

/-- Side `s` has the packet `n` of the other one. -/
def Has (w : World) (s : Side) (n : Nat) : Prop := Received (w.key_state s).rec_reliable (w.delivered s) n

/-- Side `s` has the packets of the other one with these packet ids. -/
def Acknowledges (w : World) (s : Side) (ids : List packet_id_type) : Prop :=
  ∀ pid ∈ ids, pid.toNat < (w.written s.other).length ∧ w.Has s pid.toNat

/-- A packet that side `s` has sent. -/
def SentBy (o : Options) (w : World) (s : Side) (m : ControlPacket) : Prop :=
  ∃ ids rest, ids.length ≤ RELIABLE_ACK_SIZE ∧ m.body = ackRecord ids (o.session_id s.other) ++ rest ∧
    w.Acknowledges s ids ∧ (m.opcode = P_ACK_V1 ∨ ∃ (pid : packet_id_type) (p : Payload),
      (w.written s)[pid.toNat]? = some p ∧ m.opcode = p.opcode ∧ rest = BigEndian.bytes 4 pid.toNat ++ p.content)

structure Sound (o : Options) (w : World) : Prop where
  outgoing : ∀ s, Outgoing (w.key_state s).send_reliable (w.written s)
  incoming : ∀ s, Incoming (w.key_state s).rec_reliable (w.written s.other) (w.delivered s)
  kept : ∀ s, ∀ n < (w.written s).length,
    (∃ h ∈ (w.key_state s).send_reliable.held, h.packet_id.toNat = n) ∨ w.Has s.other n
  distinct : ∀ s, Distinct (w.key_state s).rec_ack ∧ Distinct (w.key_state s).lru_acks
  acks : ∀ s, w.Acknowledges s (w.key_state s).rec_ack.packet_id ∧ w.Acknowledges s (w.key_state s).lru_acks.packet_id
  sent : ∀ s, ∀ m ∈ w.sent s, w.SentBy o s m
  rooms : ∀ s, (w.key_state s).send_reliable.room = o.room s ∧ (w.key_state s).rec_reliable.room = o.room s
  size : ∀ s, (w.key_state s).send_reliable.size = TLS_RELIABLE_N_SEND_BUFFERS
  fit : ∀ s, ∀ p ∈ w.written s, p.opcode ≠ P_ACK_V1 ∧ p.content.length ≤ o.room s
  failed : w.failed = false

/-- No packet is forgotten. -/
structure Grows (w w' : World) : Prop where
  written : ∀ s, w.written s <+: w'.written s
  has : ∀ s n, w.Has s n → w'.Has s n

theorem Acknowledges.mono (h : w.Acknowledges s ids) (hgrows : Grows w w') : w'.Acknowledges s ids := by
  intro pid hpid
  obtain ⟨hlt, hhas⟩ := h pid hpid
  exact ⟨hlt.trans_le (hgrows.written _).length_le, hgrows.has _ _ hhas⟩

theorem getElem?_of_prefix (h : written <+: written') {p : Payload} (hp : written[n]? = some p) :
    written'[n]? = some p := by
  obtain ⟨rest, rfl⟩ := h
  rw [List.getElem?_append_left (List.getElem?_eq_some_iff.mp hp).1, hp]

theorem SentBy.mono (h : w.SentBy o s m) (hgrows : Grows w w') : w'.SentBy o s m := by
  obtain ⟨ids, rest, hlength, hbody, hids, hpacket⟩ := h
  refine ⟨ids, rest, hlength, hbody, hids.mono hgrows, hpacket.imp_right ?_⟩
  rintro ⟨pid, p, hp, hrest⟩
  exact ⟨pid, p, getElem?_of_prefix (hgrows.written s) hp, hrest⟩

end World

theorem Incoming.mono (h : Incoming rel written delivered) (hwritten : written <+: written') :
    Incoming rel written' delivered :=
  ⟨h.windowed, h.read.trans hwritten, fun h' hh' => World.getElem?_of_prefix hwritten (h.holds h' hh')⟩

end AllInSafe.ControlChannel
