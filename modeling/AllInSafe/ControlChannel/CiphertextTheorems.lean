import AllInSafe.ControlChannel.Theorems

/-!
# The ciphertext of a TLS object in packets

`write_outgoing_tls_ciphertext`. The TLS object is a function of the room that it is given; the warning is left out.
-/

namespace AllInSafe.ControlChannel
open AllInSafe.Library World

def TLS_CHANNEL_BUF_SIZE : Nat := 2048
def P_CONTROL_WKC_V1 : Nat := 11

def control_packet_needs_wkc (resend_wkc : Bool) (send_reliable : Reliable) : Bool :=
  resend_wkc && send_reliable.packet_id == 1

/-- The loop that splits the ciphertext, `none` where it finds no buffer. `turns` bounds it. -/
def splitCiphertext (resend_wkc : Bool) (wkc max_pkt_len : Nat) :
    Nat → List UInt8 → Reliable → Option (List Payload × Reliable)
  | 0, _, _ => none
  | turns + 1, tmp, rel =>
      if tmp.length = 0 then some ([], rel)
      else
        let needs_wkc := control_packet_needs_wkc resend_wkc rel
        let opcode := if needs_wkc then P_CONTROL_WKC_V1 else P_CONTROL_V1
        let len := min (if needs_wkc then max_pkt_len - wkc else max_pkt_len) tmp.length
        match reliable_get_buf_output_sequenced rel with
        | none => none
        | some i =>
            -- A packet that does not fit into its buffer is lost.
            let content := if len ≤ rel.room then tmp.take len else []
            (splitCiphertext resend_wkc wkc max_pkt_len turns (tmp.drop len)
              (reliable_mark_active_outgoing rel i content opcode)).map fun (packets, rel) =>
                (⟨opcode, content⟩ :: packets, rel)

/-- The packets that go to the reliability layer, `none` where an assertion fails. -/
def write_outgoing_tls_ciphertext (resend_wkc : Bool) (wkc : Nat) (tun_mtu overhead : Int)
    (key_state_read_ciphertext : Nat → List UInt8) (rel : Reliable) : Option (List Payload × Reliable) :=
  let rel_avail := reliable_get_num_output_sequenced_available rel
  if rel_avail = 0 then some ([], rel)
  else
    let max_pkt_len := min (TLS_CHANNEL_BUF_SIZE : Int) tun_mtu - overhead
    let maxlen := max_pkt_len * rel_avail - (if control_packet_needs_wkc resend_wkc rel then wkc else 0)
    let (maxlen, max_pkt_len) := if maxlen < 16 then (16, (TLS_CHANNEL_BUF_SIZE : Int)) else (maxlen, max_pkt_len)
    splitCiphertext resend_wkc wkc max_pkt_len.toNat (RELIABLE_CAPACITY + 1)
      (key_state_read_ciphertext maxlen.toNat) rel

variable {rel : Reliable} {written : List Payload} {n i wkc max_pkt_len turns : Nat} {p : Payload} {tmp : List UInt8}
  {resend_wkc : Bool}

/-! ## How many packets may be written -/

/-- A sender has room for `n` more packets. -/
structure Room (rel : Reliable) (written : List Payload) (n : Nat) : Prop where
  le_size : n ≤ rel.size
  window : ∀ h ∈ rel.held, written.length + n ≤ h.packet_id.toNat + rel.size

/-- The number that the sender computes is the greatest one with room. -/
theorem available_room (hout : Outgoing rel written) (hmax : written.length ≤ PACKETS_MAX) :
    ∃ n : Nat, reliable_get_num_output_sequenced_available rel = n ∧ Room rel written n ∧
      ∀ m, Room rel written m → m ≤ n := by
  have hids : ∀ h ∈ rel.held, h.packet_id.toNat < 2 ^ 31 := fun h hh => (hout.id_lt hh).trans_le hmax
  have hnext : rel.packet_id.toNat = written.length := hout.next ▸ toNat_of_le hmax
  have hsize : rel.size ≤ 12 := rel.size_le
  have hextent := @extent_toNat rel
  unfold reliable_get_num_output_sequenced_available
  rcases minId_eq hids with ⟨hnone, hempty⟩ | ⟨h, hh, hsome, hleast⟩
  · rw [hnone]
    exact ⟨rel.size, rfl, ⟨le_refl _, by simp [hempty]⟩, fun m hm => hm.le_size⟩
  · have hlt := hout.id_lt hh
    have hwindow := hout.window h hh
    rw [hsome]
    refine ⟨rel.size - (written.length - h.packet_id.toNat), ?_, ⟨Nat.sub_le _ _, fun h' hh' => ?_⟩,
      fun m hm => ?_⟩
    · have hnat : (rel.extent - subtract_pid rel.packet_id h.packet_id).toNat =
          rel.size - (written.length - h.packet_id.toNat) := by
        unfold subtract_pid
        rw [BitVec.toNat_sub, BitVec.toNat_sub, hextent, hnext]
        have hlt' := h.packet_id.isLt
        have hhalf : PACKETS_MAX = 2 ^ 31 := rfl
        omega
      simp only [BitVec.toInt, hnat]
      rw [if_pos (by omega)]
    · have hfirst := hleast h' hh'
      omega
    · have hfirst := hm.window h hh
      omega

/-- A packet that is written leaves room for one packet less. -/
theorem Room.write (hroom : Room rel written (n + 1)) (hout : Outgoing rel written)
    (hmax : written.length < PACKETS_MAX)
    {buf : List UInt8} {opcode : Nat} :
    ∃ i, reliable_get_buf_output_sequenced rel = some i ∧
      Room (reliable_mark_active_outgoing rel i buf opcode) (written ++ [⟨opcode, buf⟩]) n := by
  have hall : ∀ h ∈ rel.held, written.length < h.packet_id.toNat + rel.size := fun h hh => by
    have hwindow := hroom.window h hh
    omega
  obtain ⟨i, hi⟩ := reliable_get_buf_of_can_get (reliable_can_get_of_length (hout.has_room hall))
  have hnext : rel.packet_id.toNat = written.length := hout.next ▸ toNat_of_le hmax.le
  have hsize := hroom.le_size
  refine ⟨i, (hout.get_buf_output_sequenced_iff hmax.le).mpr ⟨hi, hall⟩, ?_, fun h hh => ?_⟩
  · rw [size_mark_active_outgoing]
    omega
  · rw [size_mark_active_outgoing, List.length_append, List.length_singleton]
    rcases List.mem_cons.mp ((held_mark_active_outgoing hi).mem_iff.mp hh) with rfl | hh
    · simp only [hnext]
      omega
    · have hwindow := hroom.window h hh
      omega

/-! ## The loop -/

/-- The sender after it has taken the packets, one after the other. -/
def writeAll (rel : Reliable) (packets : List Payload) : Option Reliable :=
  packets.foldlM
    (fun rel p => (reliable_get_buf_output_sequenced rel).map fun i =>
      reliable_mark_active_outgoing rel i p.content p.opcode) rel

/-- What is left to split fits into the packets that are left; the first one may have to carry the wrapped key. -/
def Fits (resend_wkc : Bool) (wkc max_pkt_len n : Nat) (tmp : List UInt8) (rel : Reliable) : Prop :=
  if control_packet_needs_wkc resend_wkc rel then
    (tmp.length ≠ 0 → 0 < n) ∧ tmp.length - min (max_pkt_len - wkc) tmp.length ≤ max_pkt_len * (n - 1)
  else tmp.length ≤ max_pkt_len * n

/-- A key is resent in the packet `1`, so that no packet but the first one of a loop carries it. -/
theorem Fits.next {len opcode : Nat} (hfits : Fits resend_wkc wkc max_pkt_len (n + 1) tmp rel)
    (hid : rel.packet_id.toNat ≠ 0)
    (hlen : min (if control_packet_needs_wkc resend_wkc rel then max_pkt_len - wkc else max_pkt_len) tmp.length = len) :
    Fits resend_wkc wkc max_pkt_len n (tmp.drop len)
      (reliable_mark_active_outgoing rel i (tmp.take len) opcode) := by
  have hnone : control_packet_needs_wkc resend_wkc (reliable_mark_active_outgoing rel i (tmp.take len) opcode) =
      false := by
    rw [control_packet_needs_wkc, Bool.and_eq_false_iff, beq_eq_false_iff_ne]
    refine .inr fun hone => hid ?_
    have hsum : rel.packet_id + 1 = 1 := hone
    bv_omega
  rw [Fits, hnone, if_neg Bool.false_ne_true, List.length_drop, ← hlen]
  unfold Fits at hfits
  split_ifs at hfits ⊢
  · simpa using hfits.2
  · rw [Nat.mul_succ] at hfits
    omega

theorem splitCiphertext_some (hout : Outgoing rel written) (hstarted : 0 < written.length) (hroom : Room rel written n)
    (hmax : written.length + n ≤ PACKETS_MAX) (hturns : n < turns)
    (hbuf : max_pkt_len ≤ rel.room ∨ tmp.length ≤ rel.room)
    (hfits : Fits resend_wkc wkc max_pkt_len n tmp rel) :
    ∃ packets rel', splitCiphertext resend_wkc wkc max_pkt_len turns tmp rel = some (packets, rel') ∧
      writeAll rel packets = some rel' ∧ (packets.map Payload.content).flatten = tmp ∧
        ∀ p ∈ packets, p.opcode ≠ P_ACK_V1 ∧ p.content.length ≤ rel.room ∧ p.content.length ≤ max_pkt_len := by
  induction turns generalizing tmp rel written n with
  | zero => omega
  | succ turns ih =>
      unfold splitCiphertext
      by_cases hempty : tmp.length = 0
      · exact ⟨[], rel, by rw [if_pos hempty], rfl, by simp [List.length_eq_zero_iff.mp hempty], by simp⟩
      · rw [if_neg hempty]
        have hnext : rel.packet_id.toNat = written.length := hout.next ▸ toNat_of_le (by omega)
        obtain ⟨m, rfl⟩ : ∃ m, n = m + 1 := by
          refine Nat.exists_eq_succ_of_ne_zero fun hzero => ?_
          unfold Fits at hfits
          split_ifs at hfits
          · exact absurd (hfits.1 hempty) (by omega)
          · rw [hzero, Nat.mul_zero] at hfits
            omega
        simp only
        generalize hopcode : (if control_packet_needs_wkc resend_wkc rel then P_CONTROL_WKC_V1 else P_CONTROL_V1) =
          opcode
        generalize hlen : min (if control_packet_needs_wkc resend_wkc rel then max_pkt_len - wkc else max_pkt_len)
          tmp.length = len
        have hle : len ≤ max_pkt_len ∧ len ≤ tmp.length := by
          rw [← hlen]
          split_ifs <;> omega
        rw [if_pos (show len ≤ rel.room by omega)]
        have hcontent : (tmp.take len).length = len := by rw [List.length_take]; omega
        obtain ⟨i, hi, hroom'⟩ := @Room.write _ _ m hroom hout (by omega) (tmp.take len) opcode
        have hout' := @Outgoing.write _ _ ⟨opcode, tmp.take len⟩ _ hout (by omega) hi
        have hrest : Fits resend_wkc wkc max_pkt_len m (tmp.drop len)
            (reliable_mark_active_outgoing rel i (tmp.take len) opcode) := hfits.next (by omega) hlen
        obtain ⟨packets, rel', hsplit, hwrite, hflatten, hall⟩ := ih hout' (by simp) hroom'
          (by rw [List.length_append, List.length_singleton]; omega) (by omega)
          (hbuf.imp_right fun hle => by rw [List.length_drop]; exact (Nat.sub_le _ _).trans hle) hrest
        have hpacket : opcode ≠ P_ACK_V1 := by
          rw [← hopcode]
          split_ifs <;> decide
        refine ⟨⟨opcode, tmp.take len⟩ :: packets, rel', by simp [hi, hsplit], ?_, by simp [hflatten], ?_⟩
        · simpa [writeAll, hi] using hwrite
        · rw [List.forall_mem_cons]
          exact ⟨⟨hpacket, by rw [hcontent]; omega, by rw [hcontent]; omega⟩, hall⟩

/-! ## The whole record -/

theorem step_write {o : Options} {w : World} {s : Side}
    (hi : reliable_get_buf_output_sequenced (w.key_state s).send_reliable = some i) (hopcode : p.opcode ≠ P_ACK_V1)
    (hroom : p.content.length ≤ (w.key_state s).send_reliable.room) :
    ∃ w', step o w (.write s p) = some w' ∧ (w'.key_state s).send_reliable =
      reliable_mark_active_outgoing (w.key_state s).send_reliable i p.content p.opcode := by
  refine ⟨_, by rw [step, if_neg (by simp [hopcode, hroom]), hi]; rfl, ?_⟩
  simp [addWritten, setKeyState]

/-- What the loop does is a run of the channel. -/
theorem run_of_writeAll {o : Options} {w : World} {s : Side} {packets : List Payload}
    (hall : ∀ p ∈ packets, p.opcode ≠ P_ACK_V1 ∧ p.content.length ≤ (w.key_state s).send_reliable.room)
    (hwrite : writeAll (w.key_state s).send_reliable packets = some rel) :
    ∃ w', (channel o).runFrom w (packets.map (Event.write s)) = some w' ∧ (w'.key_state s).send_reliable = rel := by
  induction packets generalizing w with
  | nil => exact ⟨w, rfl, Option.some.inj hwrite⟩
  | cons p packets ih =>
      obtain ⟨hp, hall⟩ := List.forall_mem_cons.mp hall
      unfold writeAll at hwrite
      obtain ⟨rel₁, hrel₁, hwrite⟩ := Option.bind_eq_some_iff.mp hwrite
      obtain ⟨i, hi, rfl⟩ := Option.map_eq_some_iff.mp hrel₁
      obtain ⟨w₁, hstep, hsend⟩ := @step_write _ p o w s hi hp.1 hp.2
      obtain ⟨w', hrun, hrel⟩ := ih (by rw [hsend]; exact hall) (by rw [hsend]; exact hwrite)
      exact ⟨w', Machine.runFrom_cons.mpr ⟨w₁, hstep, hrun⟩, hrel⟩

/-- The key is resent while at most one packet is held. -/
theorem many_of_needs_wkc (hout : Outgoing rel written) (hmax : written.length ≤ PACKETS_MAX)
    (hneeds : control_packet_needs_wkc resend_wkc rel = true) (hgreatest : ∀ m, Room rel written m → m ≤ n) :
    rel.size - 1 ≤ n := by
  have hid : rel.packet_id = 1 := beq_iff_eq.mp (Bool.and_eq_true_iff.mp hneeds).2
  have hnext : rel.packet_id.toNat = written.length := hout.next ▸ toNat_of_le hmax
  have hone : written.length = 1 := by rw [← hnext, hid]; rfl
  have hpos : 0 < rel.size := rel.size_pos
  exact hgreatest _ ⟨Nat.sub_le _ _, fun h _ => by omega⟩

/-- The smallest amount fits into packets of the largest size, also where the key is sent again. -/
theorem fits_smallest (hone : 1 ≤ n) (hmany : control_packet_needs_wkc resend_wkc rel = true → 5 ≤ n)
    (hlength : tmp.length ≤ 16) : Fits resend_wkc wkc TLS_CHANNEL_BUF_SIZE n tmp rel := by
  unfold Fits TLS_CHANNEL_BUF_SIZE
  split_ifs with hneeds
  · have := hmany hneeds
    omega
  · omega

/-- What the free buffers hold, less the key where it is sent again, fits into them. -/
theorem fits_available (hone : 1 ≤ n) (hlarge : 16 ≤ (max_pkt_len : Int) * n -
      (if control_packet_needs_wkc resend_wkc rel then wkc else 0 : Nat))
    (hlength : tmp.length ≤ ((max_pkt_len : Int) * n -
      (if control_packet_needs_wkc resend_wkc rel then wkc else 0 : Nat)).toNat) :
    Fits resend_wkc wkc max_pkt_len n tmp rel := by
  obtain ⟨m, rfl⟩ := Nat.exists_eq_add_of_le' hone
  have hproduct : (max_pkt_len : Int) * ((m + 1 : Nat) : Int) = ((max_pkt_len * m + max_pkt_len : Nat) : Int) := by
    push_cast
    ring
  rw [hproduct] at hlarge hlength
  unfold Fits
  split_ifs at hlarge hlength ⊢ with hneeds
  · rw [Nat.add_sub_cancel]
    omega
  · rw [Nat.mul_succ]
    omega

/-- A side that has written its first packet, and has a free buffer for the next one, takes all that its TLS object gives
it: no assertion fails, and the packets are what was given, in pieces. -/
theorem ciphertext_is_written (o : Options) (es : List Event) (w : World)
    (hrun : (channel o).runFrom (channel o).init es = some w) (s : Side)
    (hmax : ∀ t, (w.written t).length + RELIABLE_CAPACITY ≤ PACKETS_MAX) (hstarted : w.written s ≠ [])
    (hbuf : (reliable_get_buf_output_sequenced (w.key_state s).send_reliable).isSome = true) (resend_wkc : Bool)
    (wkc : Nat) (tun_mtu overhead : Int) (hoverhead : 0 ≤ overhead) (hmtu : tun_mtu ≤ o.room s) (hroom : 16 ≤ o.room s)
    (key_state_read_ciphertext : Nat → List UInt8) (hread : ∀ n, (key_state_read_ciphertext n).length ≤ n) :
    ∃ packets rel' maxlen, 16 ≤ maxlen ∧
      write_outgoing_tls_ciphertext resend_wkc wkc tun_mtu overhead key_state_read_ciphertext
        (w.key_state s).send_reliable = some (packets, rel') ∧
      (packets.map Payload.content).flatten = key_state_read_ciphertext maxlen ∧
      ∃ w', (channel o).runFrom w (packets.map (Event.write s)) = some w' ∧ (w'.key_state s).send_reliable = rel' := by
  have hbounded : Bounded w := fun t => (Nat.le_add_right _ _).trans (hmax t)
  have hsound := sound_run sound_init hrun hbounded
  have hout := hsound.outgoing s
  have hpos : 0 < (w.written s).length := List.length_pos_iff.mpr hstarted
  obtain ⟨n, hn, hroom', hgreatest⟩ := available_room hout (hbounded s)
  have hone : 1 ≤ n := by
    obtain ⟨i, hi⟩ := Option.isSome_iff_exists.mp hbuf
    have hsize : 0 < (w.key_state s).send_reliable.size := (w.key_state s).send_reliable.size_pos
    exact hgreatest 1 ⟨hsize, ((hout.get_buf_output_sequenced_iff (hbounded s)).mp hi).2⟩
  have hlimit : (w.written s).length + n ≤ PACKETS_MAX :=
    (Nat.add_le_add_left (hroom'.le_size.trans (w.key_state s).send_reliable.size_le) _).trans (hmax s)
  have hsplit := fun maxlen max_pkt_len hbuf hfits => @splitCiphertext_some _ _ n wkc max_pkt_len
    (RELIABLE_CAPACITY + 1) (key_state_read_ciphertext maxlen) resend_wkc hout hpos hroom' hlimit
    (Nat.lt_succ_of_le (hroom'.le_size.trans (w.key_state s).send_reliable.size_le)) hbuf hfits
  obtain ⟨maxlen, hmaxlen, packets, rel', hwritten, hall, hwrite, hflatten⟩ :
      ∃ maxlen, 16 ≤ maxlen ∧ ∃ packets rel',
        write_outgoing_tls_ciphertext resend_wkc wkc tun_mtu overhead key_state_read_ciphertext
          (w.key_state s).send_reliable = some (packets, rel') ∧
        (∀ p ∈ packets, p.opcode ≠ P_ACK_V1 ∧ p.content.length ≤ (w.key_state s).send_reliable.room) ∧
        writeAll (w.key_state s).send_reliable packets = some rel' ∧
        (packets.map Payload.content).flatten = key_state_read_ciphertext maxlen := by
    unfold write_outgoing_tls_ciphertext
    rw [hn, if_neg (by omega)]
    simp only
    generalize hkey : (if control_packet_needs_wkc resend_wkc (w.key_state s).send_reliable then wkc else 0) = key
    generalize hT : min (TLS_CHANNEL_BUF_SIZE : Int) tun_mtu - overhead = T
    by_cases hsmall : T * n - key < 16
    · rw [if_pos hsmall]
      -- There is hardly any room for a packet: the smallest amount is read, and sent in packets of the largest size.
      have hlength := hread 16
      have hmany : control_packet_needs_wkc resend_wkc (w.key_state s).send_reliable = true → 5 ≤ n := by
        intro hneeds
        have hmany := many_of_needs_wkc hout (hbounded s) hneeds hgreatest
        rwa [hsound.size s] at hmany
      have hfits := @fits_smallest _ _ wkc _ _ hone hmany hlength
      obtain ⟨packets, rel', hsome, hwrite, hflatten, hall⟩ :=
        hsplit 16 TLS_CHANNEL_BUF_SIZE (.inr (hlength.trans ((hsound.rooms s).1 ▸ hroom))) hfits
      exact ⟨16, le_refl _, packets, rel', hsome, fun p hp => ⟨(hall p hp).1, (hall p hp).2.1⟩, hwrite, hflatten⟩
    · rw [if_neg hsmall]
      obtain ⟨L, rfl⟩ : ∃ L : Nat, T = L := by
        refine Int.eq_ofNat_of_zero_le ?_
        by_contra hneg
        have hproduct : T * n ≤ 0 := Int.mul_nonpos_of_nonpos_of_nonneg (by omega) (by omega)
        omega
      have hlength := hread ((L : Int) * n - key).toNat
      have hfits : Fits resend_wkc wkc L n (key_state_read_ciphertext ((L : Int) * n - key).toNat)
          (w.key_state s).send_reliable := by
        subst hkey
        exact fits_available hone (not_lt.mp hsmall) hlength
      obtain ⟨packets, rel', hsome, hwrite, hflatten, hall⟩ :=
        hsplit ((L : Int) * n - key).toNat L (.inl (by rw [(hsound.rooms s).1]; omega)) hfits
      exact ⟨_, by omega, packets, rel', hsome, fun p hp => ⟨(hall p hp).1, (hall p hp).2.1⟩, hwrite, hflatten⟩
  obtain ⟨w', hrun', hsend⟩ := run_of_writeAll hall hwrite
  exact ⟨packets, rel', maxlen, hmaxlen, hwritten, hflatten, w', hrun', hsend⟩

theorem firstPacket_run : ((channel lossyOptions).runFrom (channel lossyOptions).init
    [.write .client ⟨7, []⟩]).isSome = true := by
  decide +kernel

/-- Forty bytes after the first packet. -/
theorem ciphertext_is_written_forty : ∃ w packets rel' maxlen, 16 ≤ maxlen ∧
    write_outgoing_tls_ciphertext true 20 154 60 (fun n => (List.replicate 40 0).take n)
      (World.key_state w .client).send_reliable = some (packets, rel') ∧
    (packets.map Payload.content).flatten = (List.replicate 40 0).take maxlen ∧
    ∃ w', (channel lossyOptions).runFrom w (packets.map (Event.write .client)) = some w' ∧
      (w'.key_state .client).send_reliable = rel' :=
  ⟨_, ciphertext_is_written lossyOptions _ _ (Option.some_get firstPacket_run).symm .client
    (fun t => by cases t <;> decide +kernel) (by decide +kernel) (by decide +kernel) true 20 154 60 (by decide)
    (by decide) (by decide) _ fun n => List.length_take_le _ _⟩

end AllInSafe.ControlChannel
