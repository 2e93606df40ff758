import AllInSafe.ControlChannel.Theorems

/-!
# Records of acknowledgments, and packets that nobody has written
-/

namespace AllInSafe.ControlChannel
open AllInSafe.Library World

variable {ack ack_mru : ReliableAck} {buf rest : List UInt8} {sid : SessionId} {ids : List packet_id_type} {n k : Nat}
  {ks ks' : KeyState}

/-! ## Records -/

theorem read_packet_id_some {pid : packet_id_type} (h : reliable_ack_read_packet_id buf = some (pid, rest)) :
    buf = BigEndian.bytes 4 pid.toNat ++ rest := by
  unfold reliable_ack_read_packet_id at h
  split_ifs at h with hlength
  cases h
  have htake : (buf.take 4).length = 4 := by simp [hlength]
  have hlt := BigEndian.value_lt (buf.take 4)
  rw [htake] at hlt
  have hbytes := BigEndian.bytes_value (buf.take 4)
  rw [htake] at hbytes
  rw [BitVec.toNat_ofNat, Nat.mod_eq_of_lt (by simpa using hlt), hbytes, List.take_append_drop]

theorem parseIds_some (h : parseIds n ack buf = some (ack_mru, rest)) :
    ∃ ids, ids.length = n ∧ ack_mru.packet_id = ack.packet_id ++ ids ∧ buf = bytesOfIds ids ++ rest := by
  induction n generalizing ack buf with
  | zero =>
      cases h
      exact ⟨[], rfl, by simp, by simp [bytesOfIds]⟩
  | succ n ih =>
      unfold parseIds at h
      split at h
      next => cases h
      next pid buf' hread =>
        split_ifs at h with hroom
        obtain ⟨ids, hlength, hids, hbuf⟩ := ih h
        refine ⟨pid :: ids, by simp [hlength], by simp [hids, ReliableAck.push], ?_⟩
        rw [read_packet_id_some hread, hbuf]
        simp [bytesOfIds]

theorem session_id_read_some (h : session_id_read buf = some (sid, rest)) : buf = sid.id ++ rest := by
  unfold session_id_read at h
  split_ifs at h
  cases h
  exact (List.take_append_drop _ _).symm

theorem reliable_ack_parse_some {remote : Option SessionId} (h : reliable_ack_parse buf = some (ack, remote, rest)) :
    ∃ tail, buf = UInt8.ofNat ack.packet_id.length :: bytesOfIds ack.packet_id ++ tail ∧
      (ack.packet_id.length = 0 ∧ tail = rest ∨ ack.packet_id.length ≠ 0 ∧ ∃ sid, remote = some sid ∧
        tail = sid.id ++ rest) := by
  unfold reliable_ack_parse at h
  split at h
  next => cases h
  next count buf' =>
    split at h
    next => cases h
    next ack' tail hparse =>
      obtain ⟨ids, hlength, hids, hbuf⟩ := parseIds_some hparse
      have hids' : ack'.packet_id = ids := by simpa using hids
      have hcount : UInt8.ofNat ack'.packet_id.length = count := by rw [hids', hlength, UInt8.ofNat_toNat]
      split_ifs at h with hne
      · obtain ⟨⟨sid, rest'⟩, hsid, heq⟩ := Option.map_eq_some_iff.mp h
        cases heq
        refine ⟨tail, by rw [hcount, hids', hbuf]; rfl, .inr ⟨fun hzero => hne ?_, sid, rfl, session_id_read_some hsid⟩⟩
        rw [← hcount, hzero]
        rfl
      · cases h
        refine ⟨rest, by rw [hcount, hids', hbuf]; rfl, .inl ⟨?_, rfl⟩⟩
        rw [hids', hlength, not_not.mp hne]
        rfl

/-- What is read as a record of this session is a record of this session, and nothing else is. -/
theorem ack_read_iff (buf rest : List UInt8) (ack : ReliableAck) (sid : SessionId)
    (hsid : session_id_defined sid = true) :
    reliable_ack_read buf sid = some (ack, rest) ↔ buf = ackRecord ack.packet_id sid ++ rest := by
  refine ⟨fun h => ?_, fun h => h ▸ reliable_ack_read_record ack.len_le hsid⟩
  unfold reliable_ack_read at h
  split at h
  next => cases h
  next ack' remote rest' hparse =>
    split_ifs at h with hother
    cases h
    obtain ⟨tail, hbuf, ⟨hzero, rfl⟩ | ⟨hne, sid', rfl, rfl⟩⟩ := reliable_ack_parse_some hparse
    · simp [ackRecord, hbuf, hzero]
    · rw [not_and, Bool.not_eq_true', Bool.not_eq_false] at hother
      have hsame := hother (Nat.one_le_iff_ne_zero.mpr hne)
      simp only [Option.any_some, Bool.and_eq_true, beq_iff_eq] at hsame
      simp [ackRecord, hbuf, hne, hsame.2]

/-- A record with the acknowledgments of a packet, of a session whose id is `1`. -/
theorem ack_read_iff_two : reliable_ack_read (ackRecord [3, 4] ⟨[1, 0, 0, 0, 0, 0, 0, 0], rfl⟩ ++ [7])
    ⟨[1, 0, 0, 0, 0, 0, 0, 0], rfl⟩ = some (⟨[3, 4], by decide⟩, [7]) :=
  (ack_read_iff _ [7] ⟨[3, 4], by decide⟩ ⟨[1, 0, 0, 0, 0, 0, 0, 0], rfl⟩ (by decide)).mpr rfl

/-- A record holds the oldest acknowledgments first, then the most recent ones that have been sent already; every
acknowledgment is in the record or still to be sent, and none is in it twice. -/
theorem ack_write_read (ack ack_mru : ReliableAck) (sid : SessionId) (max : Nat) (rest : List UInt8)
    (hdistinct : Distinct ack) (hmru : Distinct ack_mru) (hsid : session_id_defined sid = true) :
    ∃ sent, reliable_ack_read ((reliable_ack_write ack ack_mru sid max).1 ++ rest) sid = some (sent, rest) ∧
      sent.packet_id = (ack.packet_id.take max ++
        ack_mru.packet_id.filter (· ∉ ack.packet_id.take max)).take (min max RELIABLE_ACK_SIZE) ∧
      (reliable_ack_write ack ack_mru sid max).2.1.packet_id = ack.packet_id.drop max ∧
      (∀ pid ∈ ack.packet_id, pid ∈ sent.packet_id ∨ pid ∈ (reliable_ack_write ack ack_mru sid max).2.1.packet_id) ∧
      Distinct sent ∧ Distinct (reliable_ack_write ack ack_mru sid max).2.1 ∧
      Distinct (reliable_ack_write ack ack_mru sid max).2.2 := by
  have hdrop : (reliable_ack_write ack ack_mru sid max).2.1.packet_id = ack.packet_id.drop max := by
    simp only [reliable_ack_write]
    rcases le_total ack.packet_id.length max with hle | hle
    · rw [Nat.min_eq_left hle, List.drop_length, List.drop_of_length_le hle]
    · rw [Nat.min_eq_right hle]
  let sent := (recent (ack.packet_id.take max) ack_mru.packet_id).take max
  have hlength : sent.length ≤ RELIABLE_ACK_SIZE := (List.length_take_le' _ _).trans (List.length_take_le _ _)
  have hsent : sent = (ack.packet_id.take max ++
      ack_mru.packet_id.filter (· ∉ ack.packet_id.take max)).take (min max RELIABLE_ACK_SIZE) := List.take_take
  refine ⟨⟨sent, hlength⟩, ?_, hsent, hdrop, fun pid hpid => ?_, ?_, ?_, hdistinct.copy hmru⟩
  · rw [reliable_ack_write_eq hdistinct hmru]
    exact reliable_ack_read_record hlength hsid
  · rw [← List.take_append_drop max ack.packet_id, List.mem_append] at hpid
    rcases hpid with hpid | hpid
    · refine .inl ?_
      have hle : (ack.packet_id.take max).length ≤ min max RELIABLE_ACK_SIZE :=
        le_min (List.length_take_le _ _) ((List.length_take_le' _ _).trans ack.len_le)
      simp only [hsent]
      rw [List.take_append, List.take_of_length_le hle]
      exact List.mem_append_left _ hpid
    · exact .inr (hdrop ▸ hpid)
  · exact (nodup_recent (hdistinct.sublist (List.take_sublist _ _)) hmru).sublist (List.take_sublist _ _)
  · exact hdistinct.sublist (List.drop_sublist _ _)

/-- Two acknowledgments to send, one that has been sent before. -/
theorem ack_write_read_two : ∃ sent,
    reliable_ack_read ((reliable_ack_write ⟨[5, 6], by decide⟩ ⟨[6, 4], by decide⟩
      ⟨[1, 0, 0, 0, 0, 0, 0, 0], rfl⟩ 4).1 ++
      [7]) ⟨[1, 0, 0, 0, 0, 0, 0, 0], rfl⟩ = some (sent, [7]) ∧ sent.packet_id = [5, 6, 4] := by
  obtain ⟨sent, hread, hsent, -⟩ := ack_write_read ⟨[5, 6], by decide⟩ ⟨[6, 4], by decide⟩
    ⟨[1, 0, 0, 0, 0, 0, 0, 0], rfl⟩ 4 [7] (by unfold Distinct; decide) (by unfold Distinct; decide) (by decide)
  exact ⟨sent, hread, hsent⟩

/-! ## Packets that nobody has written -/

/-- What a side does with a packet, or, without one, when its TLS object reads the next one. -/
def takeIn (session_id : SessionId) (ks : KeyState) : Option ControlPacket → Option KeyState
  | some packet => receive_control session_id packet ks
  | none =>
      match reliable_get_entry_sequenced ks.rec_reliable with
      | none => some ks
      | some i => some { ks with rec_reliable := reliable_mark_deleted ks.rec_reliable i }

theorem Receives.windowed {packet : ControlPacket} (hwin : Windowed ks.rec_reliable k)
    (h : Receives sid packet ks k ks') : Windowed ks'.rec_reliable k := by
  cases h with
  | unreadable _ => exact hwin
  | dropped _ _ => exact hwin
  | repeated _ _ _ _ => exact hwin
  | stored _ _ _ hwindowed _ _ _ => exact hwindowed

theorem takeIn_windowed {arrivals : List (Option ControlPacket)} (hwin : Windowed ks.rec_reliable k)
    (hreads : k + arrivals.count none ≤ PACKETS_MAX) :
    ∃ ks' k', arrivals.foldlM (takeIn sid) ks = some ks' ∧ Windowed ks'.rec_reliable k' ∧ k' ≤ PACKETS_MAX := by
  induction arrivals generalizing ks k with
  | nil => exact ⟨ks, k, rfl, hwin, hreads⟩
  | cons arrival arrivals ih =>
      cases arrival with
      | some packet =>
          rw [List.count_cons_of_ne (by simp)] at hreads
          obtain ⟨ks₁, hks₁, hreceives⟩ := @receive_control_receives k packet ks sid hwin (by omega)
          obtain ⟨ks', k', hrest, hwin', hmax⟩ := ih (hreceives.windowed hwin) hreads
          exact ⟨ks', k', by simp [takeIn, hks₁, hrest], hwin', hmax⟩
      | none =>
          rw [List.count_cons_self] at hreads
          cases hi : reliable_get_entry_sequenced ks.rec_reliable with
          | none =>
              obtain ⟨ks', k', hrest, hwin', hmax⟩ := ih hwin (by omega)
              exact ⟨ks', k', by simp [takeIn, hi, hrest], hwin', hmax⟩
          | some i =>
              obtain ⟨-, -, -, -, hwin₁⟩ := hwin.delete (by omega) hi
              obtain ⟨ks', k', hrest, hwin', hmax⟩ := @ih (k + 1)
                { ks with rec_reliable := reliable_mark_deleted ks.rec_reliable i } hwin₁ (by omega)
              exact ⟨ks', k', by simp [takeIn, hi, hrest], hwin', hmax⟩

/-- Whatever arrives, forged packets included, no assertion fails, and a receiver that waits for the next packet has a
free buffer for it and takes it. -/
theorem receiver_never_clogs (o : Options) (s : Side) (arrivals : List (Option ControlPacket))
    (hreads : arrivals.count none ≤ PACKETS_MAX) :
    ∃ ks, arrivals.foldlM (takeIn (o.session_id s)) (newKeyState o s) = some ks ∧
      (reliable_get_entry_sequenced ks.rec_reliable = none → reliable_can_get ks.rec_reliable = true ∧
        reliable_wont_break_sequentiality ks.rec_reliable ks.rec_reliable.packet_id = true ∧
          reliable_not_replay ks.rec_reliable ks.rec_reliable.packet_id = true) := by
  have hinit : Windowed (newKeyState o s).rec_reliable 0 := (@sound_init o).incoming s |>.windowed
  obtain ⟨ks, k, hks, hwin, hmax⟩ := @takeIn_windowed (o.session_id s) 0 (newKeyState o s) arrivals hinit (by omega)
  refine ⟨ks, hks, fun hnone => ⟨reliable_can_get_of_length (hwin.has_room hmax hnone), ?_⟩⟩
  have hpos : 0 < ks.rec_reliable.size := ks.rec_reliable.size_pos
  have hnext : ks.rec_reliable.packet_id.toNat = k := hwin.next ▸ toNat_of_le hmax
  exact (hwin.checks_iff hmax).mpr ⟨by omega, get_entry_sequenced_none_iff.mp hnone⟩

/-- A forged packet with the packet id `7`. -/
theorem receiver_never_clogs_forged :
    let forged : ControlPacket := ⟨P_CONTROL_V1, [0, 0, 0, 0, 7]⟩
    ∃ ks, [some forged, none, some forged].foldlM (takeIn (lossyOptions.session_id .client))
        (newKeyState lossyOptions .client) = some ks ∧
      (reliable_get_entry_sequenced ks.rec_reliable = none → reliable_can_get ks.rec_reliable = true ∧
        reliable_wont_break_sequentiality ks.rec_reliable ks.rec_reliable.packet_id = true ∧
          reliable_not_replay ks.rec_reliable ks.rec_reliable.packet_id = true) :=
  receiver_never_clogs lossyOptions .client _ (by decide)

end AllInSafe.ControlChannel
