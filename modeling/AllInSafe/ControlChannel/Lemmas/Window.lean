import AllInSafe.ControlChannel.Lemmas.Held
import AllInSafe.ControlChannel.Model

/-!
# The windows of both directions

What a sender may hold of the packets it has written, and a receiver of those that it has not read yet.
-/

namespace AllInSafe.ControlChannel
open AllInSafe.Library

/-- So many packets have packet ids that compare as their numbers do. -/
def PACKETS_MAX : Nat := 2 ^ 31

variable {rel rel' : Reliable} {written delivered : List Payload} {p : Payload} {i k n : Nat} {id : packet_id_type}
  {ack : ReliableAck} {h : Held} {opcode : Nat} {buf : List UInt8}

theorem toNat_of_le (hn : n ≤ PACKETS_MAX) : (BitVec.ofNat 32 n).toNat = n := by
  rw [BitVec.toNat_ofNat]
  exact Nat.mod_eq_of_lt (hn.trans_lt (by decide))

/-! ## The sending side -/

/-- A sender holds packets that it has written, none of them too far behind. -/
structure Outgoing (rel : Reliable) (written : List Payload) : Prop where
  next : rel.packet_id = BitVec.ofNat 32 written.length
  holds : ∀ h ∈ rel.held, ∃ p, written[h.packet_id.toNat]? = some p ∧ h.opcode = p.opcode ∧
    h.buf = BigEndian.bytes 4 h.packet_id.toNat ++ p.content
  distinct : (rel.held.map fun h => h.packet_id.toNat).Nodup
  window : ∀ h ∈ rel.held, written.length ≤ h.packet_id.toNat + rel.size

namespace Outgoing

theorem id_lt (hout : Outgoing rel written) (hh : h ∈ rel.held) : h.packet_id.toNat < written.length := by
  obtain ⟨p, hp, -⟩ := hout.holds h hh
  exact (List.getElem?_eq_some_iff.mp hp).1

theorem congr (hout : Outgoing rel written) (hheld : rel'.held = rel.held) (hid : rel'.packet_id = rel.packet_id)
    (hsize : rel'.size = rel.size) : Outgoing rel' written where
  next := hid.trans hout.next
  holds := hheld ▸ hout.holds
  distinct := hheld ▸ hout.distinct
  window := by rw [hheld, hsize]; exact hout.window

theorem purge (hout : Outgoing rel written) : Outgoing (reliable_send_purge rel ack) written := by
  obtain ⟨hheld, hid, hsize, -⟩ := @send_purge_eq rel ack
  refine ⟨hid.trans hout.next, fun h hh => ?_, ?_, fun h hh => ?_⟩
  · exact hout.holds h (List.mem_of_mem_filter (hheld ▸ hh))
  · rw [hheld]
    exact hout.distinct.sublist (List.filter_sublist.map _)
  · rw [hsize]
    exact hout.window h (List.mem_of_mem_filter (hheld ▸ hh))

/-- The first packet of a sender decides whether it takes another one. -/
theorem get_buf_output_sequenced_iff (hout : Outgoing rel written) (hmax : written.length ≤ PACKETS_MAX) :
    reliable_get_buf_output_sequenced rel = some i ↔
      reliable_get_buf rel = some i ∧ ∀ h ∈ rel.held, written.length < h.packet_id.toNat + rel.size := by
  have hids : ∀ h ∈ rel.held, h.packet_id.toNat < 2 ^ 31 := fun h hh => (hout.id_lt hh).trans_le hmax
  have hnext := hout.next ▸ toNat_of_le hmax
  unfold reliable_get_buf_output_sequenced
  rcases minId_eq hids with ⟨hnone, hempty⟩ | ⟨h, hh, hsome, hleast⟩
  · simp [hnone, hempty]
  · have hle : h.packet_id.toNat ≤ rel.packet_id.toNat := by
      rw [hnext]
      exact (hout.id_lt hh).le
    rw [hsome, Option.all_some, reliable_pid_in_range1_eq hle, extent_toNat, hnext]
    have hiff : written.length - h.packet_id.toNat < rel.size ↔
        ∀ h ∈ rel.held, written.length < h.packet_id.toNat + rel.size := by
      constructor
      · intro hroom h' hh'
        have hfirst := hleast h' hh'
        omega
      · intro hall
        have hfirst := hall h hh
        have hlt := hout.id_lt hh
        omega
    by_cases hroom : written.length - h.packet_id.toNat < rel.size
    · simp only [hroom, decide_true, if_true]
      exact ⟨fun hfree => ⟨hfree, hiff.mp hroom⟩, fun hboth => hboth.1⟩
    · simp only [hroom, decide_false, Bool.false_eq_true, if_false, reduceCtorEq, false_iff]
      exact fun hboth => hroom (hiff.mpr hboth.2)

/-- A sender whose packets are all close to the next one has a free buffer. -/
theorem has_room (hout : Outgoing rel written) (hall : ∀ h ∈ rel.held, written.length < h.packet_id.toNat + rel.size) :
    rel.held.length < rel.size := by
  have hpos := rel.size_pos
  by_cases hempty : rel.held = []
  · rw [hempty]
    exact hpos
  · obtain ⟨h, hh⟩ := List.exists_mem_of_ne_nil _ hempty
    have hbound := Slots.length_le_window (written.length + 1 - rel.size) written.length hout.distinct fun h hh => by
      have hclose := hall h hh
      exact ⟨by omega, hout.id_lt hh⟩
    have hlt := hout.id_lt hh
    have hsize : 0 < rel.size := hpos
    omega

/-- A packet that is written is held. -/
theorem write (hout : Outgoing rel written) (hmax : written.length < PACKETS_MAX)
    (hi : reliable_get_buf_output_sequenced rel = some i) :
    Outgoing (reliable_mark_active_outgoing rel i p.content p.opcode) (written ++ [p]) := by
  obtain ⟨hi, hall⟩ := (hout.get_buf_output_sequenced_iff hmax.le).mp hi
  have hheld := @held_mark_active_outgoing rel i p.content p.opcode hi
  have hnext : rel.packet_id.toNat = written.length := hout.next ▸ toNat_of_le hmax.le
  refine ⟨?_, fun h hh => ?_, ?_, fun h hh => ?_⟩
  · rw [List.length_append, List.length_singleton, BitVec.ofNat_add, ← hout.next]
    rfl
  · rcases List.mem_cons.mp (hheld.mem_iff.mp hh) with rfl | hh
    · exact ⟨p, by simp [hnext], rfl, rfl⟩
    · obtain ⟨q, hq, hrest⟩ := hout.holds h hh
      exact ⟨q, by rw [List.getElem?_append_left (hout.id_lt hh), hq], hrest⟩
  · rw [(hheld.map _).nodup_iff, List.map_cons, List.nodup_cons]
    refine ⟨fun hmem => ?_, hout.distinct⟩
    obtain ⟨h, hh, heq⟩ := List.mem_map.mp hmem
    have hlt := hout.id_lt hh
    simp only [hnext] at heq
    omega
  · rw [List.length_append, List.length_singleton, size_mark_active_outgoing]
    rcases List.mem_cons.mp (hheld.mem_iff.mp hh) with rfl | hh
    · have hpos : 0 < rel.size := rel.size_pos
      simp only [hnext]
      omega
    · exact hall h hh

end Outgoing

/-! ## The receiving side -/

/-- A receiver that has read `k` packets holds some of those that its buffers have room for. -/
structure Windowed (rel : Reliable) (k : Nat) : Prop where
  next : rel.packet_id = BitVec.ofNat 32 k
  distinct : (rel.held.map fun h => h.packet_id.toNat).Nodup
  window : ∀ h ∈ rel.held, k ≤ h.packet_id.toNat ∧ h.packet_id.toNat < k + rel.size

namespace Windowed

/-- While the next packet is missing, a buffer is free for it. -/
theorem has_room (hwin : Windowed rel k) (hmax : k ≤ PACKETS_MAX) (hnext : reliable_get_entry_sequenced rel = none) :
    rel.held.length < rel.size := by
  have hmissing := get_entry_sequenced_none_iff.mp hnext
  have hbound := Slots.length_le_window (k + 1) (k + rel.size) hwin.distinct fun h hh => by
    obtain ⟨hle, hlt⟩ := hwin.window h hh
    have hne : h.packet_id.toNat ≠ k := fun heq => hmissing h hh <| by
      rw [hwin.next, ← BitVec.toNat_inj, toNat_of_le hmax, heq]
    omega
  have hpos : 0 < rel.size := rel.size_pos
  omega

/-- The checks of an incoming packet. -/
theorem checks_iff (hwin : Windowed rel k) (hmax : k ≤ PACKETS_MAX) :
    (reliable_wont_break_sequentiality rel id = true ∧ reliable_not_replay rel id = true) ↔
      (k ≤ id.toNat ∧ id.toNat < k + rel.size) ∧ ∀ h ∈ rel.held, h.packet_id ≠ id := by
  have hbase : rel.packet_id.toNat = k := hwin.next ▸ toNat_of_le hmax
  have hsize : rel.size ≤ 12 := rel.size_le
  have hextent : rel.extent.toNat = rel.size := extent_toNat
  have hhalf : PACKETS_MAX = 2 ^ 31 := rfl
  have hchecks := @incoming_checks_iff id rel.packet_id rel.extent (by omega)
  have hrange : reliable_pid_in_range1 id rel.packet_id rel.extent = true ↔ k ≤ id.toNat ∧ id.toNat < k + rel.size := by
    unfold reliable_pid_in_range1 subtract_pid
    rw [decide_eq_true_eq, BitVec.lt_def, BitVec.toNat_sub]
    have hlt := id.isLt
    omega
  rw [hrange, Bool.and_eq_true, Bool.not_eq_true'] at hchecks
  rw [reliable_not_replay_iff, ← and_assoc]
  refine and_congr_left fun _ => hchecks.trans ⟨fun hwindow => hwindow.resolve_right ?_, .inl⟩
  omega

theorem accept (hwin : Windowed rel k) (buf : List UInt8) (opcode : Nat) (hmax : k ≤ PACKETS_MAX)
    (hi : reliable_get_buf rel = some i)
    (hbreak : reliable_wont_break_sequentiality rel id = true) (hreplay : reliable_not_replay rel id = true) :
    ∃ rel', reliable_mark_active_incoming rel i buf id opcode = some rel' ∧ Windowed rel' k ∧
      rel'.held.Perm (⟨id, opcode, buf⟩ :: rel.held) ∧ rel'.room = rel.room ∧ rel'.size = rel.size := by
  obtain ⟨rel', hmark, hheld, hid, hsize, hroom⟩ :=
    @mark_active_incoming_eq rel i buf id opcode hi (reliable_not_replay_iff.mp hreplay).1
  obtain ⟨hwindow, hnew⟩ := (hwin.checks_iff hmax).mp ⟨hbreak, hreplay⟩
  refine ⟨rel', hmark, ⟨hid.trans hwin.next, ?_, fun h hh => ?_⟩, hheld, hroom, hsize⟩
  · rw [(hheld.map _).nodup_iff, List.map_cons, List.nodup_cons]
    refine ⟨fun hmem => ?_, hwin.distinct⟩
    obtain ⟨h, hh, heq⟩ := List.mem_map.mp hmem
    exact hnew h hh (BitVec.toNat_inj.mp heq)
  · rw [hsize]
    rcases List.mem_cons.mp (hheld.mem_iff.mp hh) with rfl | hh
    · exact hwindow
    · exact hwin.window h hh

theorem delete (hwin : Windowed rel k) (hmax : k ≤ PACKETS_MAX) (hi : reliable_get_entry_sequenced rel = some i) :
    ∃ e, rel.array[i]? = some e ∧ e.packet_id.toNat = k ∧ rel.held.Perm (e.held :: (reliable_mark_deleted rel i).held) ∧
      Windowed (reliable_mark_deleted rel i) (k + 1) := by
  obtain ⟨e, he, hid, hheld, hnext, hsize, -⟩ := mark_deleted_eq hi
  have hnumber : e.packet_id.toNat = k := by rw [hid, hwin.next, toNat_of_le hmax]
  have hdistinct := (hheld.map fun h => h.packet_id.toNat).nodup_iff.mp hwin.distinct
  rw [List.map_cons, List.nodup_cons] at hdistinct
  refine ⟨e, he, hnumber, hheld, ?_, hdistinct.2, fun h hh => ?_⟩
  · rw [hnext, hwin.next, BitVec.ofNat_add]
    rfl
  · rw [hsize]
    obtain ⟨hle, hlt⟩ := hwin.window h (hheld.mem_iff.mpr (List.mem_cons_of_mem _ hh))
    have hne : h.packet_id.toNat ≠ k := fun heq => hdistinct.1 (List.mem_map.mpr ⟨h, hh, heq.trans hnumber.symm⟩)
    omega

end Windowed

/-- The packets that a receiver has read, and those it holds, are packets that the sender has written. -/
structure Incoming (rel : Reliable) (written delivered : List Payload) : Prop where
  windowed : Windowed rel delivered.length
  read : delivered <+: written
  holds : ∀ h ∈ rel.held, written[h.packet_id.toNat]? = some ⟨h.opcode, h.buf⟩

/-- The receiver has the packet `n`. -/
def Received (rel : Reliable) (delivered : List Payload) (n : Nat) : Prop :=
  n < delivered.length ∨ ∃ h ∈ rel.held, h.packet_id.toNat = n

end AllInSafe.ControlChannel
