import AllInSafe.ControlChannel.Theorems

/-!
# A transfer can always be finished

From every state that can be reached, the packets that have been written can still all be read.
-/

namespace AllInSafe.ControlChannel
open AllInSafe.Library World

variable {o : Options} {w w' w'' : World} {s : Side} {ks : KeyState} {i : Nat}

/-- Events in which nothing is written. -/
def Quiet (o : Options) (w w' : World) : Prop :=
  (∃ es, (channel o).runFrom w es = some w') ∧ w'.written = w.written

theorem Quiet.refl : Quiet o w w := ⟨⟨[], rfl⟩, rfl⟩

theorem Quiet.trans (h : Quiet o w w') (h' : Quiet o w' w'') : Quiet o w w'' := by
  obtain ⟨⟨es, hes⟩, hwritten⟩ := h
  obtain ⟨⟨es', hes'⟩, hwritten'⟩ := h'
  exact ⟨⟨es ++ es', Machine.runFrom_append.mpr ⟨w', hes, hes'⟩⟩, hwritten'.trans hwritten⟩

theorem Quiet.of_step {e : Event} (hstep : step o w e = some w') (hwritten : w'.written = w.written) : Quiet o w w' :=
  ⟨⟨[e], Machine.runFrom_cons.mpr ⟨w', hstep, rfl⟩⟩, hwritten⟩

theorem Quiet.bounded (h : Quiet o w w') (hmax : Bounded w) : Bounded w' := fun s => by
  rw [h.2]
  exact hmax s

theorem Quiet.sound (h : Quiet o w w') (hsound : Sound o w) (hmax : Bounded w) : Sound o w' := by
  obtain ⟨es, hes⟩ := h.1
  exact sound_run hsound hes (h.bounded hmax)

/-! ## Reading what is there -/

/-- A side can read until the next packet is missing. -/
theorem can_drain (s : Side) (hsound : Sound o w) (hmax : Bounded w) : ∃ w', Quiet o w w' ∧
    reliable_get_entry_sequenced (w'.key_state s).rec_reliable = none ∧
      (∀ t, (w'.key_state t).send_reliable = (w.key_state t).send_reliable) ∧ w'.sent = w.sent := by
  generalize hn : (w.key_state s).rec_reliable.held.length = n
  induction n generalizing w with
  | zero =>
      refine ⟨w, .refl, get_entry_sequenced_none_iff.mpr ?_, fun _ => rfl, rfl⟩
      rw [List.length_eq_zero_iff.mp hn]
      simp
  | succ n ih =>
      cases hi : reliable_get_entry_sequenced (w.key_state s).rec_reliable with
      | none => exact ⟨w, .refl, hi, fun _ => rfl, rfl⟩
      | some i =>
          have hread := (hsound.incoming s).windowed.delete ((hsound.incoming s).read.length_le.trans (hmax s.other)) hi
          obtain ⟨e, he, -, hheld, -⟩ := hread
          have hstep : step o w (.read s) = some ((w.setKeyState s { w.key_state s with
              rec_reliable := reliable_mark_deleted (w.key_state s).rec_reliable i }).addDelivered s
                ⟨e.opcode, e.buf⟩) := by
            simp [step, hi, he]
          have hquiet := Quiet.of_step hstep rfl
          obtain ⟨w', hquiet', hnone, hsend, hsent⟩ := ih (hquiet.sound hsound hmax) (hquiet.bounded hmax) (by
            have hlength := hheld.length_eq
            rw [List.length_cons] at hlength
            simp only [addDelivered, setKeyState, Function.update_self]
            omega)
          refine ⟨w', hquiet.trans hquiet', hnone, fun t => (hsend t).trans ?_, hsent⟩
          revert t
          exact Side.forall_of s (by simp [addDelivered, setKeyState]) (by simp [addDelivered, setKeyState])

/-- The most acknowledgments that go into one packet. -/
def ackLimit (o : Options) (s : Side) : Nat := if o.workaround s then min RELIABLE_ACK_SIZE 4 else RELIABLE_ACK_SIZE

theorem ackLimit_pos : 0 < ackLimit o s := by
  unfold ackLimit
  split_ifs <;> decide

theorem step_send_ack (hempty : reliable_ack_empty (w.key_state s).rec_ack = false) :
    ∃ w' ks, step o w (.send_ack s) = some w' ∧ w'.written = w.written ∧ w'.delivered = w.delivered ∧
      w'.key_state = Function.update w.key_state s ks ∧ ks.send_reliable = (w.key_state s).send_reliable ∧
        ks.rec_reliable = (w.key_state s).rec_reliable ∧
          ks.rec_ack.packet_id = (w.key_state s).rec_ack.packet_id.drop
            (min (w.key_state s).rec_ack.packet_id.length (ackLimit o s)) ∧
            w'.sent s = w.sent s ++ [⟨P_ACK_V1, (reliable_ack_write (w.key_state s).rec_ack (w.key_state s).lru_acks
              (o.session_id s.other) (ackLimit o s)).1⟩] := by
  let r := write_control_auth (o.workaround s) (o.session_id s.other) [] P_ACK_V1 RELIABLE_ACK_SIZE false
    (w.key_state s)
  refine ⟨(w.setKeyState s r.2).addSent s r.1, r.2, by simp [step, hempty, r], rfl, rfl, rfl, rfl, rfl, rfl, ?_⟩
  simp [addSent, setKeyState, write_control_auth, ackLimit, r]

/-- A side can send all its acknowledgments. -/
theorem can_acknowledge (s : Side) : ∃ w', Quiet o w w' ∧ (w'.key_state s).rec_ack.packet_id = [] ∧
    (∀ t, (w'.key_state t).send_reliable = (w.key_state t).send_reliable ∧
      (w'.key_state t).rec_reliable = (w.key_state t).rec_reliable) ∧ w'.delivered = w.delivered := by
  generalize hn : (w.key_state s).rec_ack.packet_id.length = n
  induction n using Nat.strong_induction_on generalizing w with
  | _ n ih =>
      cases hempty : reliable_ack_empty (w.key_state s).rec_ack with
      | true => exact ⟨w, .refl, List.isEmpty_iff.mp hempty, fun _ => ⟨rfl, rfl⟩, rfl⟩
      | false =>
          obtain ⟨w₁, ks, hstep, hwritten, hdelivered, hks, hsend, hrec, hack, -⟩ := @step_send_ack o w s hempty
          have hpos : 0 < n := hn ▸ List.length_pos_iff.mpr fun hnil => by simp [reliable_ack_empty, hnil] at hempty
          have hlimit := @ackLimit_pos o s
          obtain ⟨w', hquiet, hdone, hsame, hdelivered'⟩ := ih (n - min n (ackLimit o s)) (by omega) (by
            rw [hks, Function.update_self, hack, List.length_drop, hn])
          refine ⟨w', (Quiet.of_step hstep hwritten).trans hquiet, hdone, fun t => ?_, hdelivered'.trans hdelivered⟩
          rw [(hsame t).1, (hsame t).2, hks]
          revert t
          exact Side.forall_of s (by simp [hsend, hrec]) (by simp)

/-! ## One packet more -/

/-- A side that holds packets can send the first of them. -/
theorem can_send (s : Side) (hsound : Sound o w) (hmax : Bounded w) (hheld : (w.key_state s).send_reliable.held ≠ []) :
    ∃ w' held m, Quiet o w w' ∧ held ∈ (w.key_state s).send_reliable.held ∧
      (∀ h ∈ (w.key_state s).send_reliable.held, held.packet_id.toNat ≤ h.packet_id.toNat) ∧ m ∈ w'.sent s ∧
        m.opcode = held.opcode ∧ (∃ ids, ids.length ≤ RELIABLE_ACK_SIZE ∧
          m.body = ackRecord ids (o.session_id s.other) ++ held.buf) ∧
            (w'.key_state s).send_reliable.held = (w.key_state s).send_reliable.held ∧
              w'.key_state s.other = w.key_state s.other ∧ w'.delivered = w.delivered := by
  -- All packets are due at once.
  let rel := reliable_schedule_now 0 (w.key_state s).send_reliable
  let w₁ := w.setKeyState s { w.key_state s with send_reliable := rel }
  have hquiet : Quiet o w w₁ := Quiet.of_step (e := .schedule_now s 0) rfl rfl
  obtain ⟨hsame, -, -, -, hhold⟩ := @schedule_now_eq (w.key_state s).send_reliable 0
  have hids : ∀ h ∈ rel.held, h.packet_id.toNat < 2 ^ 31 :=
    fun h hh => ((hsound.outgoing s).id_lt (hsame ▸ hh)).trans_le (hmax s)
  have hdue : ∀ e ∈ rel.array, e.active = true → due 0 e = true := by
    intro e he hactive
    obtain ⟨e', -, rfl⟩ := List.mem_map.mp he
    by_cases hwas : e'.active = true
    · simp [due, hwas]
    · rw [if_neg hwas] at hactive
      exact absurd hactive hwas
  obtain ⟨held, rel', hmem, hleast, hsend⟩ := send_least hids hdue (hsame ▸ hheld)
  have hcan : reliable_can_send 0 rel = true := by
    obtain ⟨e, he, hactive, -⟩ := mem_held.mp hmem
    rw [reliable_can_send, Bool.and_eq_true, List.any_eq_true]
    exact ⟨⟨e, he, hdue e he hactive⟩, by simp [rel, hhold]⟩
  obtain ⟨-, -, -, hsame', -⟩ := send_eq hsend
  have hrel : (w₁.key_state s).send_reliable = rel := by simp [w₁, setKeyState]
  let r := write_control_auth (o.workaround s) (o.session_id s.other) held.buf held.opcode CONTROL_SEND_ACK_MAX true
    { w₁.key_state s with send_reliable := rel' }
  have hstep : step o w₁ (.send s 0) = some ((w₁.setKeyState s r.2).addSent s r.1) := by
    simp only [step, hrel, hcan, if_true, hsend]
    rfl
  obtain ⟨hdistinct, hmru⟩ := (hquiet.sound hsound hmax).distinct s
  refine ⟨_, held, r.1, hquiet.trans (Quiet.of_step hstep rfl), hsame ▸ hmem, hsame ▸ hleast, ?_, rfl, ?_, ?_, ?_, rfl⟩
  · simp [addSent]
  · refine ⟨_, ?_, congrArg (· ++ held.buf) (reliable_ack_write_eq hdistinct hmru)⟩
    exact (List.length_take_le' _ _).trans (List.length_take_le _ _)
  · simp only [addSent, setKeyState, Function.update_self]
    exact hsame'.trans hsame
  · simp [addSent, setKeyState, w₁]

theorem step_receive (hsound : Sound o w) (hmax : Bounded w) {m : ControlPacket} (hm : m ∈ w.sent s.other) :
    ∃ e ks, step o w e = some (w.setKeyState s ks) ∧
      Receives (o.session_id s) m (w.key_state s) (w.delivered s).length ks := by
  obtain ⟨i, hi⟩ := List.getElem?_of_mem hm
  obtain ⟨ks, hks, hreceives⟩ := @receive_control_receives _ m (w.key_state s) (o.session_id s)
    (hsound.incoming s).windowed ((hsound.incoming s).read.length_le.trans (hmax s.other))
  exact ⟨.receive s i, ks, by simp [step, hi, hks], hreceives⟩

/-- The packet that is missing has been written, is held and can be stored. -/
theorem least_is_near (hsound : Sound o w) (hmax : Bounded w)
    (hnone : reliable_get_entry_sequenced (w.key_state s.other).rec_reliable = none) {held : Held}
    (hmem : held ∈ (w.key_state s).send_reliable.held)
    (hleast : ∀ h ∈ (w.key_state s).send_reliable.held, held.packet_id.toNat ≤ h.packet_id.toNat) :
    held.packet_id.toNat ≤ (w.delivered s.other).length := by
  have hread := (hsound.incoming s.other).read.length_le
  rw [Side.other_other] at hread
  by_cases hnext : (w.delivered s.other).length < (w.written s).length
  · rcases hsound.kept s _ hnext with ⟨h, hh, heq⟩ | hlt | ⟨h, hh, heq⟩
    · exact heq ▸ hleast h hh
    · exact absurd hlt (lt_irrefl _)
    · refine absurd ?_ (get_entry_sequenced_none_iff.mp hnone h hh)
      rw [← BitVec.toNat_inj, heq, (hsound.incoming s.other).windowed.next, toNat_of_le (hread.trans (hmax s))]
  · have hlt := (hsound.outgoing s).id_lt hmem
    omega

/-- The other side takes the packet, and has nothing else to acknowledge. -/
theorem can_take (hsound : Sound o w) (hmax : Bounded w) {m : ControlPacket} {held : Held} {ids : List packet_id_type}
    {p : Payload} (hm : m ∈ w.sent s) (hbody : m.body = ackRecord ids (o.session_id s.other) ++ held.buf)
    (hids : ids.length ≤ RELIABLE_ACK_SIZE) (hopcode : m.opcode ≠ P_ACK_V1)
    (hbuf : held.buf = BigEndian.bytes 4 held.packet_id.toNat ++ p.content)
    (hnone : reliable_get_entry_sequenced (w.key_state s.other).rec_reliable = none)
    (hnear : held.packet_id.toNat ≤ (w.delivered s.other).length) (hroom : p.content.length ≤ o.room s.other)
    (hack : (w.key_state s.other).rec_ack.packet_id = []) :
    ∃ w', Quiet o w w' ∧ (w'.key_state s.other).rec_ack.packet_id = [held.packet_id] ∧
      w'.key_state s = w.key_state s := by
  have hread := (hsound.incoming s.other).read.length_le
  rw [Side.other_other] at hread
  obtain ⟨e, ks, hstep, hreceives⟩ := @step_receive o w s.other hsound hmax m (by simpa using hm)
  have hrecord := @reliable_ack_read_record ids held.buf (o.session_id s.other) hids (o.defined _)
  rw [← hbody] at hrecord
  have hid : reliable_ack_read_packet_id held.buf = some (held.packet_id, p.content) := hbuf ▸ read_packet_id_bytes
  have hfree := reliable_can_get_of_length
    ((hsound.incoming s.other).windowed.has_room (hread.trans (hmax s)) hnone)
  have hpos : 0 < (w.key_state s.other).rec_reliable.size := (w.key_state s.other).rec_reliable.size_pos
  have hacked := hreceives.acknowledges hrecord hopcode hid hfree (by omega) ((hsound.rooms s.other).2 ▸ hroom)
  refine ⟨_, Quiet.of_step hstep rfl, ?_, by simp [setKeyState]⟩
  simp [setKeyState, hacked, reliable_ack_acknowledge_packet_id, reliable_ack_packet_id_present, hack,
    ReliableAck.push, RELIABLE_ACK_SIZE]

/-- The only acknowledgment of the other side comes back. -/
theorem can_return (hsound : Sound o w) (hmax : Bounded w) {held : Held}
    (hack : (w.key_state s.other).rec_ack.packet_id = [held.packet_id])
    (hmem : held ∈ (w.key_state s).send_reliable.held) :
    ∃ w', Quiet o w w' ∧
      (w'.key_state s).send_reliable.held.length < (w.key_state s).send_reliable.held.length := by
  obtain ⟨w₁, ks, hstep₁, hwritten, -, hks, -, -, -, hsent⟩ := @step_send_ack o w s.other
    (by simp [reliable_ack_empty, hack])
  have hquiet₁ := Quiet.of_step hstep₁ hwritten
  obtain ⟨hdistinct, hmru⟩ := hsound.distinct s.other
  have hlimit := @ackLimit_pos o s.other
  obtain ⟨limit, hlimit'⟩ := Nat.exists_eq_succ_of_ne_zero hlimit.ne'
  rw [reliable_ack_write_eq hdistinct hmru, hack, hlimit', Side.other_other] at hsent
  obtain ⟨e, ks', hstep, hreceives⟩ := @step_receive o w₁ s (hquiet₁.sound hsound hmax) (hquiet₁.bounded hmax) _
    (by rw [hsent]; exact List.mem_append_right _ (List.mem_singleton_self _))
  have hids : ((recent ([held.packet_id].take (limit + 1)) (w.key_state s.other).lru_acks.packet_id).take
      (limit + 1)).length ≤ RELIABLE_ACK_SIZE := (List.length_take_le' _ _).trans (List.length_take_le _ _)
  have hrecord := @reliable_ack_read_record _ [] (o.session_id s) hids (o.defined _)
  rw [List.append_nil] at hrecord
  have hpurge := hreceives.purges hrecord
  refine ⟨_, hquiet₁.trans (Quiet.of_step hstep rfl), ?_⟩
  have hsame : (w₁.key_state s).send_reliable = (w.key_state s).send_reliable := by rw [hks]; simp
  simp only [setKeyState, Function.update_self, hpurge, send_purge_eq.1, hsame]
  refine List.length_filter_lt_length_iff_exists.mpr ⟨held, hmem, ?_⟩
  simp [recent, RELIABLE_ACK_SIZE]

/-- A side that holds packets can get rid of one of them. -/
theorem can_shrink (s : Side) (hsound : Sound o w) (hmax : Bounded w)
    (hfits : ∀ p ∈ w.written s, p.content.length ≤ o.room s.other)
    (hheld : (w.key_state s).send_reliable.held ≠ []) :
    ∃ w', Quiet o w w' ∧
      (w'.key_state s).send_reliable.held.length < (w.key_state s).send_reliable.held.length := by
  obtain ⟨w₁, hquiet₁, hnone₁, hsend₁, -⟩ := can_drain s.other hsound hmax
  have hsound₁ := hquiet₁.sound hsound hmax
  obtain ⟨w₂, hquiet₂, hack₂, hsame₂, hdelivered₂⟩ := @can_acknowledge o w₁ s.other
  have hquiet₂ := hquiet₁.trans hquiet₂
  have hsound₂ := hquiet₂.sound hsound hmax
  have hnone₂ : reliable_get_entry_sequenced (w₂.key_state s.other).rec_reliable = none := by
    rw [(hsame₂ s.other).2]
    exact hnone₁
  have hsend₂ : (w₂.key_state s).send_reliable = (w.key_state s).send_reliable := (hsame₂ s).1.trans (hsend₁ s)
  obtain ⟨w₃, held, m, hquiet₃, hmem, hleast, hm, hopcode, ⟨ids, hlength, hbody⟩, hheld₃, hother₃, hdelivered₃⟩ :=
    can_send s hsound₂ (hquiet₂.bounded hmax) (hsend₂ ▸ hheld)
  have hnear := least_is_near hsound₂ (hquiet₂.bounded hmax) hnone₂ hmem hleast
  obtain ⟨p, hp, hpopcode, hpbuf⟩ := (hsound₂.outgoing s).holds held hmem
  have hp' := List.mem_of_getElem? hp
  have hopcode' : m.opcode ≠ P_ACK_V1 := by
    rw [hopcode, hpopcode]
    exact (hsound₂.fit s p hp').1
  have hquiet₃ := hquiet₂.trans hquiet₃
  obtain ⟨w₄, hquiet₄, hack₄, hsame₄⟩ := can_take (hquiet₃.sound hsound hmax) (hquiet₃.bounded hmax) hm hbody hlength
    hopcode' hpbuf (hother₃ ▸ hnone₂) (hdelivered₃ ▸ hnear) (hfits p (hquiet₂.2 ▸ hp')) (hother₃ ▸ hack₂)
  have hquiet₄ := hquiet₃.trans hquiet₄
  have hheld₄ : (w₄.key_state s).send_reliable.held = (w.key_state s).send_reliable.held := by
    rw [hsame₄, hheld₃, hsend₂]
  obtain ⟨w₅, hquiet₅, hless⟩ := can_return (hquiet₄.sound hsound hmax) (hquiet₄.bounded hmax) hack₄
    (hheld₄ ▸ hsend₂ ▸ hmem)
  exact ⟨w₅, hquiet₄.trans hquiet₅, hheld₄ ▸ hless⟩

/-! ## All packets -/

theorem lossyStart_run :
    ((channel lossyOptions).runFrom (channel lossyOptions).init (lossyEvents.take 5)).isSome = true := by
  decide +kernel

end AllInSafe.ControlChannel
