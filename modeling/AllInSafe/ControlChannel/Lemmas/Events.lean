import AllInSafe.ControlChannel.Lemmas.Sound

/-!
# Every event keeps the invariant
-/

namespace AllInSafe.ControlChannel
open AllInSafe.Library

namespace World

variable {o : Options} {w : World} {s : Side} {n i : Nat} {pid : packet_id_type} {ids : List packet_id_type}
  {m : ControlPacket} {ks : KeyState} {now : Int} {p : Payload} {sent : List ControlPacket}
  {written delivered : List Payload}

theorem sound_init : Sound o (channel o).init := by
  have hempty : ∀ timeout room size hold hpos hle, (reliable_init timeout room size hold hpos hle).held = [] := by
    intro timeout room size hold hpos hle
    rw [Reliable.held, reliable_init, List.map_eq_nil_iff, List.filter_eq_nil_iff]
    intro e he
    simp [List.eq_of_mem_replicate he]
  refine ⟨fun s => ⟨rfl, ?_, ?_, ?_⟩, fun s => ⟨⟨rfl, ?_, ?_⟩, List.nil_prefix, ?_⟩, ?_,
    fun s => ⟨List.nodup_nil, List.nodup_nil⟩, ?_, ?_, fun s => ⟨rfl, rfl⟩, fun s => List.length_replicate,
    ?_, rfl⟩
  all_goals simp [channel, newKeyState, hempty, Acknowledges]

/-! ## One side -/

/-- One side changes, with what is added to its lists. -/
def change (w : World) (s : Side) (ks : KeyState) (sent : List ControlPacket) (written delivered : List Payload) :
    World :=
  { w with
    key_state := Function.update w.key_state s ks
    sent := Function.update w.sent s (w.sent s ++ sent)
    written := Function.update w.written s (w.written s ++ written)
    delivered := Function.update w.delivered s (w.delivered s ++ delivered) }

theorem setKeyState_eq : w.setKeyState s ks = w.change s ks [] [] [] := by
  simp [change, setKeyState]

theorem addSent_eq : (w.setKeyState s ks).addSent s m = w.change s ks [m] [] [] := by
  simp [change, setKeyState, addSent]

theorem addWritten_eq : (w.setKeyState s ks).addWritten s p = w.change s ks [] [p] [] := by
  simp [change, setKeyState, addWritten]

theorem addDelivered_eq : (w.setKeyState s ks).addDelivered s p = w.change s ks [] [] [p] := by
  simp [change, setKeyState, addDelivered]

/-- The side has packets that the other one has written. -/
def Knows (w : World) (s : Side) (ks : KeyState) (delivered : List Payload) (pid : packet_id_type) : Prop :=
  pid.toNat < (w.written s.other).length ∧ Received ks.rec_reliable (w.delivered s ++ delivered) pid.toNat

/-- What one side has to keep. -/
structure Keeps (o : Options) (w : World) (s : Side) (ks : KeyState) (sent : List ControlPacket)
    (written delivered : List Payload) : Prop where
  outgoing : Outgoing ks.send_reliable (w.written s ++ written)
  incoming : Incoming ks.rec_reliable (w.written s.other) (w.delivered s ++ delivered)
  kept : ∀ n < (w.written s ++ written).length,
    (∃ h ∈ ks.send_reliable.held, h.packet_id.toNat = n) ∨ w.Has s.other n
  has : ∀ n, w.Has s n → Received ks.rec_reliable (w.delivered s ++ delivered) n
  distinct : Distinct ks.rec_ack ∧ Distinct ks.lru_acks
  rec_ack : ∀ pid ∈ ks.rec_ack.packet_id, w.Knows s ks delivered pid
  lru_acks : ∀ pid ∈ ks.lru_acks.packet_id, w.Knows s ks delivered pid
  sends : ∀ m ∈ sent, ∃ ids rest, ids.length ≤ RELIABLE_ACK_SIZE ∧
    m.body = ackRecord ids (o.session_id s.other) ++ rest ∧ ids ⊆ ks.lru_acks.packet_id ∧
      (m.opcode = P_ACK_V1 ∨ ∃ (pid : packet_id_type) (p : Payload), (w.written s)[pid.toNat]? = some p ∧
        m.opcode = p.opcode ∧ rest = BigEndian.bytes 4 pid.toNat ++ p.content)
  rooms : ks.send_reliable.room = o.room s ∧ ks.rec_reliable.room = o.room s
  size : ks.send_reliable.size = TLS_RELIABLE_N_SEND_BUFFERS
  fit : ∀ p ∈ written, p.opcode ≠ P_ACK_V1 ∧ p.content.length ≤ o.room s

theorem Keeps.grows (hk : Keeps o w s ks sent written delivered) : Grows w (w.change s ks sent written delivered) := by
  constructor
  · exact Side.forall_of s (by simp [change]) (by simp [change])
  · refine Side.forall_of s (fun n hn => ?_) fun n hn => ?_
    · simpa [change, Has] using hk.has n hn
    · simpa [change, Has] using hn

theorem acknowledges_of_knows (hids : ∀ pid ∈ ids, w.Knows s ks delivered pid) :
    (w.change s ks sent written delivered).Acknowledges s ids := by
  intro pid hpid
  simpa [change, Has, Knows] using hids pid hpid

/-- The other side keeps what it has. -/
theorem Sound.change (h : Sound o w) (hk : Keeps o w s ks sent written delivered) :
    Sound o (w.change s ks sent written delivered) := by
  have hother : (w.change s ks sent written delivered).key_state s.other = w.key_state s.other ∧
      (w.change s ks sent written delivered).sent s.other = w.sent s.other ∧
        (w.change s ks sent written delivered).written s.other = w.written s.other ∧
          (w.change s ks sent written delivered).delivered s.other = w.delivered s.other := by
    simp [World.change]
  obtain ⟨hks, hsent, hwritten, hdelivered⟩ := hother
  have hgrows := hk.grows
  constructor
  case outgoing =>
    refine Side.forall_of s ?_ ?_
    · simpa [World.change] using hk.outgoing
    · rw [hks, hwritten]
      exact h.outgoing s.other
  case incoming =>
    refine Side.forall_of s ?_ ?_
    · simpa [World.change] using hk.incoming
    · rw [hks, hdelivered]
      exact (h.incoming s.other).mono (hgrows.written _)
  case kept =>
    refine Side.forall_of s (fun n hn => ?_) fun n hn => ?_
    · rcases hk.kept n (by simpa [World.change] using hn) with hheld | hhas
      · exact .inl (by simpa [World.change] using hheld)
      · exact .inr (hgrows.has _ _ hhas)
    · rw [hks]
      exact (h.kept s.other n (hwritten ▸ hn)).imp_right (hgrows.has _ _)
  case distinct =>
    refine Side.forall_of s ?_ (hks ▸ h.distinct s.other)
    simpa [World.change] using hk.distinct
  case acks =>
    refine Side.forall_of s ⟨acknowledges_of_knows ?_, acknowledges_of_knows ?_⟩ ?_
    · simpa [World.change] using hk.rec_ack
    · simpa [World.change] using hk.lru_acks
    · rw [hks]
      exact ⟨(h.acks s.other).1.mono hgrows, (h.acks s.other).2.mono hgrows⟩
  case sent =>
    refine Side.forall_of s (fun m hm => ?_) fun m hm => (h.sent s.other m (hsent ▸ hm)).mono hgrows
    have hm' : m ∈ w.sent s ∨ m ∈ sent := by simpa [World.change] using hm
    rcases hm' with hm | hm
    · exact (h.sent s m hm).mono hgrows
    · obtain ⟨ids, rest, hlength, hbody, hids, hpacket⟩ := hk.sends m hm
      refine ⟨ids, rest, hlength, hbody, acknowledges_of_knows fun pid hpid => hk.lru_acks pid (hids hpid),
        hpacket.imp_right ?_⟩
      rintro ⟨pid, p, hp, hrest⟩
      exact ⟨pid, p, getElem?_of_prefix (hgrows.written s) hp, hrest⟩
  case rooms =>
    refine Side.forall_of s ?_ (hks ▸ h.rooms s.other)
    simpa [World.change] using hk.rooms
  case size =>
    refine Side.forall_of s ?_ (hks ▸ h.size s.other)
    simpa [World.change] using hk.size
  case fit =>
    refine Side.forall_of s ?_ (hwritten ▸ h.fit s.other)
    have hboth := List.forall_mem_append.mpr ⟨h.fit s, hk.fit⟩
    simpa [World.change] using hboth
  case failed => exact h.failed

/-- What a side keeps when nothing is added to its lists and it receives nothing. -/
theorem Sound.keeps (h : Sound o w) : Keeps o w s (w.key_state s) [] [] [] where
  outgoing := by simpa using h.outgoing s
  incoming := by simpa using h.incoming s
  kept := by simpa using h.kept s
  has := by simp [Has]
  distinct := h.distinct s
  rec_ack := by simpa [Knows, Acknowledges, Has] using (h.acks s).1
  lru_acks := by simpa [Knows, Acknowledges, Has] using (h.acks s).2
  sends := by simp
  rooms := h.rooms s
  size := h.size s
  fit := by simp

/-! ## The events -/

/-- A side takes a packet of its TLS object. -/
theorem Sound.write (h : Sound o w) (hmax : (w.written s).length < PACKETS_MAX) (hopcode : p.opcode ≠ P_ACK_V1)
    (hroom : p.content.length ≤ (w.key_state s).send_reliable.room)
    (hi : reliable_get_buf_output_sequenced (w.key_state s).send_reliable = some i) :
    Keeps o w s { w.key_state s with
      send_reliable := reliable_mark_active_outgoing (w.key_state s).send_reliable i p.content p.opcode } [] [p] [] := by
  have hheld := @held_mark_active_outgoing (w.key_state s).send_reliable i p.content p.opcode
    (((h.outgoing s).get_buf_output_sequenced_iff hmax.le).mp hi).1
  have hnext : (w.key_state s).send_reliable.packet_id.toNat = (w.written s).length :=
    (h.outgoing s).next ▸ toNat_of_le hmax.le
  refine { @Sound.keeps o w s h with
    outgoing := (h.outgoing s).write hmax hi
    kept := fun n hn => ?_
    rooms := h.rooms s
    size := size_mark_active_outgoing.trans (h.size s)
    fit := by simpa [(h.rooms s).1 ▸ hroom] using hopcode }
  rw [List.length_append, List.length_singleton] at hn
  rcases Nat.lt_succ_iff_lt_or_eq.mp hn with hn | rfl
  · refine (h.kept s n hn).imp_left ?_
    rintro ⟨h', hh', hid⟩
    exact ⟨h', hheld.mem_iff.mpr (List.mem_cons_of_mem _ hh'), hid⟩
  · exact .inl ⟨_, hheld.mem_iff.mpr List.mem_cons_self, hnext⟩

theorem Sound.schedule_now (h : Sound o w) (now : Int) :
    Keeps o w s { w.key_state s with
      send_reliable := reliable_schedule_now now (w.key_state s).send_reliable } [] [] [] := by
  obtain ⟨hheld, hid, hsize, hroom, -⟩ := @schedule_now_eq (w.key_state s).send_reliable now
  have hkeeps := @Sound.keeps o w s h
  refine { hkeeps with
    outgoing := hkeeps.outgoing.congr hheld hid hsize
    kept := fun n hn => ?_
    rooms := ⟨hroom.trans (h.rooms s).1, (h.rooms s).2⟩
    size := hsize.trans (h.size s) }
  rw [hheld]
  exact hkeeps.kept n hn

/-- A side writes a record of acknowledgments in front of a packet that it has written. -/
theorem Keeps.write_control_auth (hk : Keeps o w s ks [] [] []) {buf : List UInt8} {opcode max_ack : Nat}
    {prepend_ack : Bool} (hpacket : opcode = P_ACK_V1 ∧ buf = [] ∨ prepend_ack = true ∧
      ∃ (pid : packet_id_type) (p : Payload), (w.written s)[pid.toNat]? = some p ∧ opcode = p.opcode ∧
        buf = BigEndian.bytes 4 pid.toNat ++ p.content) :
    Keeps o w s (write_control_auth (o.workaround s) (o.session_id s.other) buf opcode max_ack prepend_ack ks).2
      [(write_control_auth (o.workaround s) (o.session_id s.other) buf opcode max_ack prepend_ack ks).1] [] [] := by
  obtain ⟨hdistinct, hmru⟩ := hk.distinct
  unfold ControlChannel.write_control_auth
  generalize (if o.workaround s = true then min max_ack 4 else max_ack) = max
  have hrecord := @reliable_ack_write_eq ks.rec_ack ks.lru_acks (o.session_id s.other) max hdistinct hmru
  have hcopy := @copy_acks_to_mru_packet_id ks.rec_ack ks.lru_acks (min ks.rec_ack.packet_id.length max) hdistinct hmru
  have htake : ks.rec_ack.packet_id.take (min ks.rec_ack.packet_id.length max) = ks.rec_ack.packet_id.take max := by
    rw [Nat.min_comm, ← List.take_take, List.take_length]
  rw [htake] at hcopy
  have hlru : ∀ pid ∈ recent (ks.rec_ack.packet_id.take max) ks.lru_acks.packet_id, w.Knows s ks [] pid := by
    intro pid hpid
    rcases mem_of_recent hpid with hpid | hpid
    · exact hk.rec_ack pid (List.mem_of_mem_take hpid)
    · exact hk.lru_acks pid hpid
  refine { hk with
    distinct := ⟨hdistinct.sublist (List.drop_sublist _ _), hdistinct.copy hmru⟩
    rec_ack := fun pid hpid => hk.rec_ack pid (List.mem_of_mem_drop hpid)
    lru_acks := fun pid hpid => hlru pid (hcopy ▸ hpid)
    sends := fun m hm => ?_ }
  rw [List.mem_singleton.mp hm]
  simp only [hrecord]
  refine ⟨(recent (ks.rec_ack.packet_id.take max) ks.lru_acks.packet_id).take max, buf, ?_, ?_, ?_, ?_⟩
  · exact (List.length_take_le' _ _).trans (List.length_take_le _ _)
  · rcases hpacket with ⟨-, rfl⟩ | ⟨rfl, -⟩ <;> simp
  · exact hcopy ▸ List.take_subset _ _
  · exact hpacket.imp And.left And.right

/-- A packet goes out, the first time or again. -/
theorem Sound.send (h : Sound o w) {best : List UInt8 × Nat} {rel : Reliable}
    (hsend : reliable_send now (w.key_state s).send_reliable = some (best, rel)) :
    Keeps o w s
      (ControlChannel.write_control_auth (o.workaround s) (o.session_id s.other) best.1 best.2 CONTROL_SEND_ACK_MAX true
        { w.key_state s with send_reliable := rel }).2
      [(ControlChannel.write_control_auth (o.workaround s) (o.session_id s.other) best.1 best.2 CONTROL_SEND_ACK_MAX true
        { w.key_state s with send_reliable := rel }).1] [] [] := by
  obtain ⟨held, hmem, rfl, hheld, hid, hsize, hroom⟩ := send_eq hsend
  have hkeeps := @Sound.keeps o w s h
  have hsent : Keeps o w s { w.key_state s with send_reliable := rel } [] [] [] := by
    refine { hkeeps with
      outgoing := hkeeps.outgoing.congr hheld hid hsize
      kept := fun n hn => ?_
      rooms := ⟨hroom.trans (h.rooms s).1, (h.rooms s).2⟩
      size := hsize.trans (h.size s) }
    rw [hheld]
    exact hkeeps.kept n hn
  obtain ⟨p, hp, hopcode, hbuf⟩ := (h.outgoing s).holds held hmem
  exact hsent.write_control_auth (.inr ⟨rfl, held.packet_id, p, hp, hopcode, hbuf⟩)

theorem Sound.send_ack (h : Sound o w) :
    Keeps o w s
      (ControlChannel.write_control_auth (o.workaround s) (o.session_id s.other) [] P_ACK_V1 RELIABLE_ACK_SIZE false
        (w.key_state s)).2
      [(ControlChannel.write_control_auth (o.workaround s) (o.session_id s.other) [] P_ACK_V1 RELIABLE_ACK_SIZE false
        (w.key_state s)).1] [] [] :=
  h.keeps.write_control_auth (.inl ⟨rfl, rfl⟩)

theorem Keeps.acknowledge (hk : Keeps o w s ks [] [] []) (hpid : w.Knows s ks [] pid) :
    Keeps o w s { ks with rec_ack := reliable_ack_acknowledge_packet_id ks.rec_ack pid } [] [] [] := by
  refine { hk with
    distinct := ⟨hk.distinct.1.acknowledge, hk.distinct.2⟩
    rec_ack := fun pid' hpid' => ?_ }
  simp only [reliable_ack_acknowledge_packet_id] at hpid'
  split_ifs at hpid' with hnew
  · rcases List.mem_append.mp hpid' with hpid' | hpid'
    · exact hk.rec_ack pid' hpid'
    · exact List.mem_singleton.mp hpid' ▸ hpid
  · exact hk.rec_ack pid' hpid'

/-- The packets that the other side has go. -/
theorem Sound.purge (h : Sound o w) {ack : ReliableAck} (hack : w.Acknowledges s.other ack.packet_id) :
    Keeps o w s { w.key_state s with send_reliable := reliable_send_purge (w.key_state s).send_reliable ack } [] [] [] := by
  obtain ⟨hheld, -, hsize, hroom⟩ := @send_purge_eq (w.key_state s).send_reliable ack
  have hkeeps := @Sound.keeps o w s h
  refine { hkeeps with
    outgoing := hkeeps.outgoing.purge
    kept := fun n hn => ?_
    rooms := ⟨hroom.trans (h.rooms s).1, (h.rooms s).2⟩
    size := hsize.trans (h.size s) }
  rcases hkeeps.kept n hn with ⟨held, hmem, rfl⟩ | hhas
  · by_cases hacked : held.packet_id ∈ ack.packet_id
    · exact .inr (hack _ hacked).2
    · exact .inl ⟨held, by rw [hheld]; exact List.mem_filter.mpr ⟨hmem, by simpa using hacked⟩, rfl⟩
  · exact .inr hhas

/-- A packet of the other side arrives, however often and in whatever order. -/
theorem Sound.receive (h : Sound o w) (hm : m ∈ w.sent s.other)
    (hreceives : Receives (o.session_id s) m (w.key_state s) (w.delivered s).length ks) : Keeps o w s ks [] [] [] := by
  obtain ⟨ids, rest, hlength, hbody, hids, hpacket⟩ := h.sent s.other m hm
  rw [Side.other_other] at hbody
  have hrecord := @reliable_ack_read_record ids rest (o.session_id s) hlength (o.defined s)
  rw [← hbody] at hrecord
  have hpurge := @Sound.purge _ _ s h ⟨ids, hlength⟩ hids
  -- The packet id that is read is the one that was written.
  have hwritten : m.opcode ≠ P_ACK_V1 → ∀ id content, reliable_ack_read_packet_id rest = some (id, content) →
      (w.written s.other)[id.toNat]? = some ⟨m.opcode, content⟩ := by
    intro hopcode id content hread
    obtain ⟨pid, p, hp, hpopcode, rfl⟩ := hpacket.resolve_left hopcode
    rw [read_packet_id_bytes] at hread
    cases hread
    rw [hp, hpopcode]
  cases hreceives with
  | unreadable hread => simp [hread] at hrecord
  | dropped hread _ =>
      cases hread.symm.trans hrecord
      exact hpurge
  | repeated hread hopcode hid hreplay =>
      cases hread.symm.trans hrecord
      have hp := hwritten hopcode _ _ hid
      refine hpurge.acknowledge ⟨(List.getElem?_eq_some_iff.mp hp).1, ?_⟩
      simp only [List.append_nil]
      rcases hreplay with hlt | ⟨held, hmem, rfl⟩
      · exact .inl hlt
      · exact .inr ⟨held, hmem, rfl⟩
  | @stored ack buf content id rec_reliable hread hopcode hid hwindowed hheld hroom hsize =>
      cases hread.symm.trans hrecord
      have hp := hwritten hopcode _ _ hid
      have hgrows : ∀ delivered n, Received (w.key_state s).rec_reliable delivered n →
          Received rec_reliable delivered n :=
        fun delivered n hreceived => hreceived.imp_right (Exists.imp fun held hboth =>
          ⟨hheld.mem_iff.mpr (List.mem_cons_of_mem _ hboth.1), hboth.2⟩)
      have hstored : Keeps o w s { w.key_state s with
          send_reliable := reliable_send_purge (w.key_state s).send_reliable ⟨ids, hlength⟩
          rec_reliable := rec_reliable } [] [] [] := by
        refine { hpurge with
          incoming := ⟨by simpa using hwindowed, hpurge.incoming.read, fun held hmem => ?_⟩
          has := fun n hhas => hgrows _ n (hpurge.has n hhas)
          rec_ack := fun pid hpid => (hpurge.rec_ack pid hpid).imp_right (hgrows _ _)
          lru_acks := fun pid hpid => (hpurge.lru_acks pid hpid).imp_right (hgrows _ _)
          rooms := ⟨hpurge.rooms.1, hroom.trans hpurge.rooms.2⟩ }
        rcases List.mem_cons.mp (hheld.mem_iff.mp hmem) with rfl | hmem
        · exact hp
        · exact hpurge.incoming.holds held hmem
      refine hstored.acknowledge ⟨(List.getElem?_eq_some_iff.mp hp).1, ?_⟩
      exact .inr ⟨_, hheld.mem_iff.mpr List.mem_cons_self, rfl⟩

/-- The TLS object reads the next packet. -/
theorem Sound.read (h : Sound o w) (hmax : (w.delivered s).length ≤ PACKETS_MAX)
    (hi : reliable_get_entry_sequenced (w.key_state s).rec_reliable = some i) :
    ∃ e, (w.key_state s).rec_reliable.array[i]? = some e ∧
      Keeps o w s { w.key_state s with rec_reliable := reliable_mark_deleted (w.key_state s).rec_reliable i } [] []
        [⟨e.opcode, e.buf⟩] := by
  obtain ⟨e, he, hnumber, hheld, hwindowed⟩ := (h.incoming s).windowed.delete hmax hi
  have hkeeps := @Sound.keeps o w s h
  have hroom : (reliable_mark_deleted (w.key_state s).rec_reliable i).room = (w.key_state s).rec_reliable.room := by
    obtain ⟨-, -, -, -, -, -, hroom⟩ := mark_deleted_eq hi
    exact hroom
  have hnext : (w.written s.other)[(w.delivered s).length]? = some ⟨e.opcode, e.buf⟩ :=
    hnumber ▸ (h.incoming s).holds e.held (hheld.mem_iff.mpr List.mem_cons_self)
  have hgrows : ∀ n, Received (w.key_state s).rec_reliable (w.delivered s) n →
      Received (reliable_mark_deleted (w.key_state s).rec_reliable i) (w.delivered s ++ [⟨e.opcode, e.buf⟩]) n := by
    intro n hreceived
    rcases hreceived with hlt | ⟨held, hmem, rfl⟩
    · exact .inl (by rw [List.length_append]; omega)
    · rcases List.mem_cons.mp (hheld.mem_iff.mp hmem) with rfl | hmem
      · exact .inl (by rw [List.length_append, List.length_singleton]; exact Nat.lt_succ_of_le hnumber.le)
      · exact .inr ⟨held, hmem, rfl⟩
  refine ⟨e, he, { hkeeps with
    incoming := ⟨by simpa using hwindowed, ?_, fun held hmem => ?_⟩
    has := fun n hhas => hgrows n hhas
    rec_ack := fun pid hpid => ((h.acks s).1 pid hpid).imp_right (hgrows _)
    lru_acks := fun pid hpid => ((h.acks s).2 pid hpid).imp_right (hgrows _)
    rooms := ⟨hkeeps.rooms.1, hroom.trans hkeeps.rooms.2⟩ }⟩
  · obtain ⟨rest, hrest⟩ := (h.incoming s).read
    rw [← hrest, List.getElem?_append_right (le_refl _), Nat.sub_self] at hnext
    cases rest with
    | nil => simp at hnext
    | cons p rest =>
        cases hnext
        exact ⟨rest, by rw [← hrest]; simp⟩
  · exact (h.incoming s).holds held (hheld.mem_iff.mpr (List.mem_cons_of_mem _ hmem))

end World

end AllInSafe.ControlChannel
