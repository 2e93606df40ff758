import AllInSafe.ControlChannel.Reliable

/-!
# Acknowledgments, and the packets that a reliability layer holds
-/

namespace AllInSafe.ControlChannel
open AllInSafe.Library

section Acks

variable {id move pid : packet_id_type} {ids acks mru : List packet_id_type} {ack ack_mru : ReliableAck}
  {buf rest : List UInt8} {sid : SessionId} {n max : Nat}

/-! ## The most recent acknowledgments -/

theorem moveRight_mem (h : id ∈ ids) : moveRight id move ids = (move :: ids.erase id, none) := by
  induction ids generalizing move with
  | nil => cases h
  | cons tmp ids ih =>
      unfold moveRight
      by_cases htmp : tmp = id
      · rw [if_pos htmp, htmp, List.erase_cons_head]
      · have hmem : id ∈ ids := (List.mem_cons.mp h).resolve_left (Ne.symm htmp)
        rw [if_neg htmp, ih hmem, List.erase_cons_tail (by simpa using htmp)]

theorem moveRight_not_mem (h : id ∉ ids) :
    ∃ out, (moveRight id move ids).2 = some out ∧ (moveRight id move ids).1 ++ [out] = move :: ids := by
  induction ids generalizing move with
  | nil => exact ⟨move, rfl, rfl⟩
  | cons tmp ids ih =>
      rw [List.mem_cons, not_or] at h
      obtain ⟨out, hout, hids⟩ := @ih tmp h.2
      unfold moveRight
      rw [if_neg (Ne.symm h.1)]
      exact ⟨out, hout, by simp [hids]⟩

/-- A packet id moves to the front, and the last one falls out where there is no room. -/
theorem copyToMru_packet_id :
    (copyToMru id ack_mru).packet_id = (id :: ack_mru.packet_id.erase id).take RELIABLE_ACK_SIZE := by
  have hle := ack_mru.len_le
  have hsize : RELIABLE_ACK_SIZE = 8 := rfl
  simp only [copyToMru, mruIds]
  by_cases hempty : ack_mru.packet_id.length = 0
  · have hnil := List.length_eq_zero_iff.mp hempty
    simp [hnil, moveRight, hsize]
  · simp only [hempty, if_false]
    by_cases hmem : id ∈ ack_mru.packet_id
    · have hlength := List.length_erase_of_mem hmem
      rw [moveRight_mem hmem]
      exact (List.take_of_length_le (by simp only [List.length_cons]; omega)).symm
    · obtain ⟨out, hout, hids⟩ := @moveRight_not_mem id id _ hmem
      have hlength := length_moveRight id id ack_mru.packet_id
      rw [List.erase_of_not_mem hmem, ← hids]
      generalize moveRight id id ack_mru.packet_id = moved at *
      obtain ⟨ids, move⟩ := moved
      cases hout
      simp only at hlength ⊢
      split_ifs with hroom
      · exact (List.take_of_length_le (by simp only [List.length_append, List.length_singleton]; omega)).symm
      · exact (List.take_left' (by omega)).symm

theorem take_erase : ((ids.take (n + 1)).erase id).take n = (ids.erase id).take n := by
  induction ids generalizing n with
  | nil => rfl
  | cons tmp ids ih =>
      by_cases htmp : tmp = id
      · simp [htmp, List.take_take]
      · rw [List.take_succ_cons, List.erase_cons_tail (by simpa using htmp), List.erase_cons_tail (by simpa using htmp)]
        cases n with
        | zero => simp
        | succ n => rw [List.take_succ_cons, List.take_succ_cons, ih]

/-- The acknowledgments `acks` in front of the others. -/
def recent (acks mru : List packet_id_type) : List packet_id_type :=
  (acks ++ mru.filter (· ∉ acks)).take RELIABLE_ACK_SIZE

theorem foldr_copyToMru (hnodup : acks.Nodup) (hmru : ack_mru.packet_id.Nodup) :
    (acks.foldr copyToMru ack_mru).packet_id = recent acks ack_mru.packet_id := by
  induction acks with
  | nil => simp [recent, List.take_of_length_le ack_mru.len_le]
  | cons id acks ih =>
      obtain ⟨hnew, hnodup⟩ := List.nodup_cons.mp hnodup
      have hsize : RELIABLE_ACK_SIZE = 7 + 1 := rfl
      rw [List.foldr_cons, copyToMru_packet_id, ih hnodup, recent, recent, hsize, List.take_succ_cons, take_erase,
        List.erase_append_right _ hnew, (hmru.filter _).erase_eq_filter, List.filter_filter, List.cons_append,
        List.take_succ_cons]
      congr 4
      funext tmp
      by_cases htmp : tmp = id <;> simp [htmp]

/-- Acknowledgments to write, each one once. -/
def Distinct (ack : ReliableAck) : Prop := ack.packet_id.Nodup

theorem Distinct.acknowledge (h : Distinct ack) : Distinct (reliable_ack_acknowledge_packet_id ack pid) := by
  unfold reliable_ack_acknowledge_packet_id
  split_ifs with hnew
  · have habsent : pid ∉ ack.packet_id := by simpa [reliable_ack_packet_id_present] using hnew.1
    exact List.nodup_append.mpr ⟨h, List.nodup_singleton _, by
      rintro a ha b hb rfl
      exact habsent (List.mem_singleton.mp hb ▸ ha)⟩
  · exact h

theorem copy_acks_to_mru_packet_id (h : Distinct ack) (hmru : Distinct ack_mru) :
    (copy_acks_to_mru ack ack_mru n).packet_id = recent (ack.packet_id.take n) ack_mru.packet_id :=
  foldr_copyToMru (h.sublist (List.take_sublist _ _)) hmru

theorem nodup_recent (h : acks.Nodup) (hmru : mru.Nodup) : (recent acks mru).Nodup := by
  refine List.Nodup.sublist (List.take_sublist _ _) (List.nodup_append.mpr ⟨h, hmru.filter _, ?_⟩)
  rintro a ha b hb rfl
  simp [ha] at hb

theorem Distinct.copy (h : Distinct ack) (hmru : Distinct ack_mru) : Distinct (copy_acks_to_mru ack ack_mru n) := by
  unfold Distinct
  rw [copy_acks_to_mru_packet_id h hmru]
  exact nodup_recent (h.sublist (List.take_sublist _ _)) hmru

theorem mem_of_recent (h : pid ∈ recent acks mru) : pid ∈ acks ∨ pid ∈ mru := by
  have hmem := List.mem_append.mp (List.mem_of_mem_take h)
  exact hmem.imp_right fun hmem => (List.mem_filter.mp hmem).1

/-! ## The record on the wire -/

/-- The bytes of a record with some packet ids. -/
def ackRecord (ids : List packet_id_type) (sid : SessionId) : List UInt8 :=
  UInt8.ofNat ids.length :: bytesOfIds ids ++ (if ids.length ≠ 0 then sid.id else [])

theorem read_packet_id_bytes :
    reliable_ack_read_packet_id (BigEndian.bytes 4 pid.toNat ++ rest) = some (pid, rest) := by
  have hvalue : BigEndian.value (BigEndian.bytes 4 pid.toNat) = pid.toNat :=
    BigEndian.value_bytes_of_lt pid.isLt
  simp [reliable_ack_read_packet_id, hvalue]

theorem parseIds_bytes (h : (ack.packet_id ++ ids).length ≤ RELIABLE_ACK_SIZE) :
    parseIds ids.length ack (bytesOfIds ids ++ rest) = some (⟨ack.packet_id ++ ids, h⟩, rest) := by
  induction ids generalizing ack with
  | nil => simp [parseIds, bytesOfIds]
  | cons pid ids ih =>
      have hroom : ack.packet_id.length < RELIABLE_ACK_SIZE := by
        rw [List.length_append, List.length_cons] at h
        omega
      have hbytes : bytesOfIds (pid :: ids) ++ rest = BigEndian.bytes 4 pid.toNat ++ (bytesOfIds ids ++ rest) := by
        simp [bytesOfIds]
      rw [List.length_cons, parseIds, hbytes, read_packet_id_bytes]
      simp only [dif_pos hroom]
      rw [ih (by simpa [ReliableAck.push] using h)]
      simp [ReliableAck.push]

theorem session_id_read_append : session_id_read (sid.id ++ rest) = some (sid, rest) := by
  have hsize := sid.size
  unfold session_id_read
  rw [dif_pos (by rw [List.length_append]; omega)]
  simp [← hsize]

/-- A record is read as it was written. -/
theorem reliable_ack_read_record (h : ids.length ≤ RELIABLE_ACK_SIZE) (hsid : session_id_defined sid = true) :
    reliable_ack_read (ackRecord ids sid ++ rest) sid = some (⟨ids, h⟩, rest) := by
  have hsize : RELIABLE_ACK_SIZE = 8 := rfl
  have hcount : (UInt8.ofNat ids.length).toNat = ids.length := by
    rw [UInt8.toNat_ofNat']
    exact Nat.mod_eq_of_lt (by omega)
  have hids := @parseIds_bytes ids {} ((if ids.length ≠ 0 then sid.id else []) ++ rest) (by simpa using h)
  unfold reliable_ack_read reliable_ack_parse ackRecord
  simp only [List.cons_append, List.append_assoc, hcount, hids]
  by_cases hempty : ids.length = 0
  · simp [hempty]
  · have hne : UInt8.ofNat ids.length ≠ 0 := by
      intro hzero
      rw [hzero] at hcount
      exact hempty hcount.symm
    simp [hne, hempty, session_id_read_append, hsid]

theorem reliable_ack_write_eq (h : Distinct ack) (hmru : Distinct ack_mru) :
    (reliable_ack_write ack ack_mru sid max).1 =
      ackRecord ((recent (ack.packet_id.take max) ack_mru.packet_id).take max) sid := by
  have htake : ack.packet_id.take (min ack.packet_id.length max) = ack.packet_id.take max := by
    rw [Nat.min_comm, ← List.take_take, List.take_length]
  unfold reliable_ack_write ackRecord
  simp only [copy_acks_to_mru_packet_id h hmru, htake]
  rw [← List.take_eq_take_min, List.length_take]

end Acks

/-! ## Packet ids that are close to each other -/

section Ids

variable {a b id base extent : packet_id_type}

theorem reliable_pid_min_eq (ha : a.toNat < 2 ^ 31) (hb : b.toNat ≤ 2 ^ 31) :
    reliable_pid_min a b = decide (a.toNat < b.toNat) := by
  unfold reliable_pid_min reliable_pid_in_range1 subtract_pid
  rw [← decide_not, decide_eq_decide, BitVec.lt_def, BitVec.toNat_sub]
  have hhalf : BitVec.toNat (2147483648 : packet_id_type) = 2 ^ 31 := rfl
  omega

theorem reliable_pid_in_range1_eq (h : b.toNat ≤ a.toNat) :
    reliable_pid_in_range1 a b extent = decide (a.toNat - b.toNat < extent.toNat) := by
  unfold reliable_pid_in_range1 subtract_pid
  rw [decide_eq_decide]
  bv_omega

/-- The two checks of an incoming packet let the packet ids from `base` on through, as many as `extent` says, and some
that are more than half of all packet ids below `base`. -/
theorem incoming_checks_iff (hextent : extent.toNat ≤ 2 ^ 31) :
    (reliable_pid_in_range2 id base extent && !reliable_pid_min id base) = true ↔
      reliable_pid_in_range1 id base extent = true ∨
        base.toNat + extent.toNat < 2 ^ 32 ∧ id.toNat + 2 ^ 31 < base.toNat := by
  unfold reliable_pid_min reliable_pid_in_range1 reliable_pid_in_range2 subtract_pid
  simp only [Bool.not_not, Bool.and_eq_true, decide_eq_true_eq]
  by_cases hwrap : base + extent ≥ base
  · rw [if_pos hwrap]
    simp only [decide_eq_true_eq]
    bv_omega
  · rw [if_neg hwrap]
    simp only [decide_eq_true_eq]
    bv_omega

end Ids

/-! ## The packets -/

/-- A packet in the buffer of an active entry. -/
structure Held where
  packet_id : packet_id_type
  opcode : Nat
  buf : List UInt8
  deriving DecidableEq

def ReliableEntry.held (e : ReliableEntry) : Held := ⟨e.packet_id, e.opcode, e.buf⟩

def Reliable.held (rel : Reliable) : List Held := (rel.array.filter ReliableEntry.active).map ReliableEntry.held

variable {rel : Reliable} {ack : ReliableAck} {i : Nat} {buf : List UInt8} {pid id : packet_id_type} {opcode : Nat}
  {now : Int} {h : Held} {e : ReliableEntry}

theorem mem_held : h ∈ rel.held ↔ ∃ e ∈ rel.array, e.active = true ∧ e.held = h := by
  simp [Reliable.held, and_assoc]

theorem extent_toNat : rel.extent.toNat = rel.size := by
  have hsize := rel.size_le
  rw [Reliable.extent, BitVec.toNat_ofNat]
  exact Nat.mod_eq_of_lt (hsize.trans_lt (by decide))

theorem reliable_empty_iff : reliable_empty rel = true ↔ rel.held = [] := by
  simp [reliable_empty, Reliable.held]

theorem reliable_can_get_of_length (hroom : rel.held.length < rel.size) : reliable_can_get rel = true := by
  rw [Reliable.held, List.length_map] at hroom
  exact Slots.any_free hroom

theorem reliable_get_buf_of_can_get (h : reliable_can_get rel = true) : ∃ i, reliable_get_buf rel = some i := by
  unfold reliable_can_get at h
  rw [← List.findIdx?_isSome] at h
  exact Option.isSome_iff_exists.mp h

/-! ## The sending side -/

/-- Where the packet ids are small, the first of them is the least. -/
theorem minId_eq (hids : ∀ h ∈ rel.held, h.packet_id.toNat < 2 ^ 31) :
    (minId rel.array = none ∧ rel.held = []) ∨
      ∃ h ∈ rel.held, minId rel.array = some h.packet_id ∧ ∀ h' ∈ rel.held, h.packet_id.toNat ≤ h'.packet_id.toNat := by
  have hbest := @Least.best_scan _ ReliableEntry.active
    (fun e least => reliable_pid_min e.packet_id least.packet_id) (fun e => e.packet_id.toNat) rel.array
    fun a ha b hb hactive hactive' => reliable_pid_min_eq (hids _ (mem_held.mpr ⟨a, ha, hactive, rfl⟩))
      (hids _ (mem_held.mpr ⟨b, hb, hactive', rfl⟩)).le
  unfold minId
  revert hbest
  generalize Least.scan _ _ _ = found
  intro hbest
  cases found with
  | none =>
      refine .inl ⟨rfl, ?_⟩
      rw [Reliable.held, List.map_eq_nil_iff, List.filter_eq_nil_iff]
      exact fun e he => by simp [hbest e he]
  | some e =>
      obtain ⟨he, hactive, hleast⟩ := hbest
      refine .inr ⟨e.held, mem_held.mpr ⟨e, he, hactive, rfl⟩, rfl, fun h' hh' => ?_⟩
      obtain ⟨e', he', hactive', rfl⟩ := mem_held.mp hh'
      exact hleast e' he' hactive'

/-- A new packet goes into a free buffer. -/
theorem held_mark_active_outgoing (hi : reliable_get_buf rel = some i) :
    (reliable_mark_active_outgoing rel i buf opcode).held.Perm
      (⟨rel.packet_id, opcode, BigEndian.bytes 4 rel.packet_id.toNat ++ buf⟩ :: rel.held) := by
  obtain ⟨b, hb, hfree⟩ := Slots.free_of_findIdx? hi
  unfold reliable_mark_active_outgoing Reliable.held
  exact (Slots.filter_set_take hb hfree rfl).map ReliableEntry.held

@[simp] theorem size_setEntry : (rel.setEntry i e).size = rel.size := List.length_set

@[simp] theorem size_mark_active_outgoing : (reliable_mark_active_outgoing rel i buf opcode).size = rel.size :=
  List.length_set

theorem purgeEntry_eq : (purgeEntry pid e).held = e.held ∧
    ((purgeEntry pid e).active = true ↔ e.active = true ∧ e.packet_id ≠ pid) := by
  unfold purgeEntry
  split_ifs with hmatch hlater <;> simp_all [ReliableEntry.held]

theorem held_mapEntries_purge :
    (rel.mapEntries (purgeEntry pid)).held = rel.held.filter fun h => h.packet_id ≠ pid := by
  unfold Reliable.held Reliable.mapEntries
  rw [List.filter_map, List.filter_map, List.filter_filter, List.map_map]
  have hheld : ReliableEntry.held ∘ purgeEntry pid = ReliableEntry.held := by
    funext e
    exact purgeEntry_eq.1
  have hactive : ReliableEntry.active ∘ purgeEntry pid =
      fun e => ((fun h => decide (h.packet_id ≠ pid)) ∘ ReliableEntry.held) e && e.active := by
    funext e
    rw [Bool.eq_iff_iff, Function.comp_apply, purgeEntry_eq.2]
    simp only [ReliableEntry.held, Function.comp_apply, Bool.and_eq_true]
    exact ⟨fun h => ⟨decide_eq_true h.2, h.1⟩, fun h => ⟨h.2, of_decide_eq_true h.1⟩⟩
  rw [hheld, hactive]

@[simp] theorem size_mapEntries {f : ReliableEntry → ReliableEntry} : (rel.mapEntries f).size = rel.size :=
  List.length_map _

theorem send_purge_eq : (reliable_send_purge rel ack).held = (rel.held.filter fun h => h.packet_id ∉ ack.packet_id) ∧
    (reliable_send_purge rel ack).packet_id = rel.packet_id ∧ (reliable_send_purge rel ack).size = rel.size ∧
      (reliable_send_purge rel ack).room = rel.room := by
  unfold reliable_send_purge
  generalize ack.packet_id = ids
  induction ids generalizing rel with
  | nil => simp
  | cons pid ids ih =>
      obtain ⟨hheld, hid, hsize, hroom⟩ := @ih (rel.mapEntries (purgeEntry pid))
      refine ⟨?_, hid, hsize.trans size_mapEntries, hroom⟩
      rw [List.foldl_cons, hheld, held_mapEntries_purge, List.filter_filter]
      refine List.filter_congr fun h _ => ?_
      simp [Bool.and_comm]

/-- Of the packets that are due, the first one is sent. -/
theorem best_bestEntry (now : Int) (hids : ∀ h ∈ rel.held, h.packet_id.toNat < 2 ^ 31) :
    Least.Best (fun e => due now e.1) (fun e => e.1.packet_id.toNat) rel.array.zipIdx (bestEntry now rel.array) := by
  have hid : ∀ e ∈ rel.array.zipIdx, due now e.1 = true → e.1.packet_id.toNat < 2 ^ 31 := by
    intro e he hdue
    have hmem := List.mem_of_getElem? (List.mem_zipIdx_iff_getElem?.mp he)
    exact hids e.1.held (mem_held.mpr ⟨e.1, hmem, (Bool.and_eq_true_iff.mp hdue).1, rfl⟩)
  refine Least.best_scan fun a ha b hb hdue hdue' => ?_
  exact reliable_pid_min_eq (hid a ha hdue) (hid b hb hdue').le

/-- Sending a packet changes when it is sent again, and nothing else. -/
theorem send_eq {sent : List UInt8 × Nat} {rel' : Reliable} (hsend : reliable_send now rel = some (sent, rel')) :
    ∃ h ∈ rel.held, sent = (h.buf, h.opcode) ∧ rel'.held = rel.held ∧ rel'.packet_id = rel.packet_id ∧
      rel'.size = rel.size ∧ rel'.room = rel.room := by
  obtain ⟨⟨e, i⟩, hbest, heq⟩ := Option.map_eq_some_iff.mp hsend
  obtain ⟨hmem, hdue⟩ := Least.mem_scan hbest
  have he := List.mem_zipIdx_iff_getElem?.mp hmem
  have hactive : e.active = true := (Bool.and_eq_true_iff.mp hdue).1
  cases heq
  refine ⟨e.held, mem_held.mpr ⟨e, List.mem_of_getElem? he, hactive, rfl⟩, rfl, ?_, rfl, size_setEntry, rfl⟩
  exact Slots.map_filter_set he rfl rfl

/-- Where every packet is due, the one with the least packet id is sent. -/
theorem send_least (hids : ∀ h ∈ rel.held, h.packet_id.toNat < 2 ^ 31)
    (hdue : ∀ e ∈ rel.array, e.active = true → due now e = true) (hne : rel.held ≠ []) :
    ∃ h rel', h ∈ rel.held ∧ (∀ h' ∈ rel.held, h.packet_id.toNat ≤ h'.packet_id.toNat) ∧
      reliable_send now rel = some ((h.buf, h.opcode), rel') := by
  have hbest := best_bestEntry now hids
  have hindex : ∀ e ∈ rel.array, ∃ i, (e, i) ∈ rel.array.zipIdx := by
    intro e he
    obtain ⟨i, hi⟩ := List.getElem?_of_mem he
    exact ⟨i, List.mem_zipIdx_iff_getElem?.mpr hi⟩
  unfold reliable_send
  cases hfound : bestEntry now rel.array with
  | none =>
      rw [hfound] at hbest
      obtain ⟨h, hh⟩ := List.exists_mem_of_ne_nil _ hne
      obtain ⟨e, he, hactive, -⟩ := mem_held.mp hh
      obtain ⟨i, hi⟩ := hindex e he
      have hnone := hbest (e, i) hi
      simp [hdue e he hactive] at hnone
  | some best =>
      rw [hfound] at hbest
      obtain ⟨hmem, hbestdue, hleast⟩ := hbest
      have he := List.mem_of_getElem? (List.mem_zipIdx_iff_getElem?.mp hmem)
      refine ⟨best.1.held, _, mem_held.mpr ⟨best.1, he, (Bool.and_eq_true_iff.mp hbestdue).1, rfl⟩, ?_, rfl⟩
      intro h' hh'
      obtain ⟨e', he', hactive', rfl⟩ := mem_held.mp hh'
      obtain ⟨i, hi⟩ := hindex e' he'
      exact hleast (e', i) hi (hdue e' he' hactive')

/-- There is a packet to send where `reliable_can_send` says so. -/
theorem send_of_can_send (hids : ∀ h ∈ rel.held, h.packet_id.toNat < 2 ^ 31)
    (hcan : reliable_can_send now rel = true) : ∃ r, reliable_send now rel = some r := by
  have hbest := best_bestEntry now hids
  obtain ⟨hdue, -⟩ := Bool.and_eq_true_iff.mp hcan
  obtain ⟨e, he, hdue⟩ := List.any_eq_true.mp hdue
  obtain ⟨i, hi⟩ := List.getElem?_of_mem he
  unfold reliable_send
  cases hfound : bestEntry now rel.array with
  | some best => exact ⟨_, rfl⟩
  | none =>
      rw [hfound] at hbest
      have hnone := hbest (e, i) (List.mem_zipIdx_iff_getElem?.mpr hi)
      simp [hdue] at hnone

theorem schedule_now_eq : (reliable_schedule_now now rel).held = rel.held ∧
    (reliable_schedule_now now rel).packet_id = rel.packet_id ∧ (reliable_schedule_now now rel).size = rel.size ∧
      (reliable_schedule_now now rel).room = rel.room ∧ (reliable_schedule_now now rel).hold = false := by
  refine ⟨?_, rfl, size_mapEntries, rfl, rfl⟩
  have hheld : ReliableEntry.held ∘ (fun e => if e.active then
      { e with next_try := now, timeout := rel.initial_timeout } else e) = ReliableEntry.held := by
    funext e
    rw [Function.comp_apply]
    split_ifs <;> rfl
  have hactive : ReliableEntry.active ∘ (fun e => if e.active then
      { e with next_try := now, timeout := rel.initial_timeout } else e) = ReliableEntry.active := by
    funext e
    rw [Function.comp_apply]
    split_ifs <;> rfl
  unfold reliable_schedule_now Reliable.held Reliable.mapEntries
  simp only
  rw [List.filter_map, List.map_map, hheld, hactive]

/-! ## The receiving side -/

theorem reliable_not_replay_iff : reliable_not_replay rel id = true ↔
    reliable_pid_min id rel.packet_id = false ∧ ∀ h ∈ rel.held, h.packet_id ≠ id := by
  unfold reliable_not_replay
  rw [Bool.not_eq_true', Bool.or_eq_false_iff, List.any_eq_false]
  refine and_congr_right fun _ => ⟨fun hall h hh heq => ?_, fun hall e he hmatch => ?_⟩
  · obtain ⟨e, he, hactive, rfl⟩ := mem_held.mp hh
    exact hall e he (by simp [hactive, show e.packet_id = id from heq])
  · obtain ⟨hactive, hid⟩ := Bool.and_eq_true_iff.mp hmatch
    exact hall e.held (mem_held.mpr ⟨e, he, hactive, rfl⟩) (beq_iff_eq.mp hid)

theorem mark_active_incoming_eq (hi : reliable_get_buf rel = some i)
    (hnew : reliable_pid_min pid rel.packet_id = false) :
    ∃ rel', reliable_mark_active_incoming rel i buf pid opcode = some rel' ∧
      rel'.held.Perm (⟨pid, opcode, buf⟩ :: rel.held) ∧ rel'.packet_id = rel.packet_id ∧ rel'.size = rel.size ∧
        rel'.room = rel.room := by
  obtain ⟨b, hb, hfree⟩ := Slots.free_of_findIdx? hi
  refine ⟨_, if_neg (by simp [hnew]), ?_, rfl, size_setEntry, rfl⟩
  exact (Slots.filter_set_take hb hfree rfl).map ReliableEntry.held

/-- The next packet leaves its buffer. -/
theorem mark_deleted_eq (hi : reliable_get_entry_sequenced rel = some i) : ∃ e, rel.array[i]? = some e ∧
    e.packet_id = rel.packet_id ∧ rel.held.Perm (e.held :: (reliable_mark_deleted rel i).held) ∧
      (reliable_mark_deleted rel i).packet_id = rel.packet_id + 1 ∧ (reliable_mark_deleted rel i).size = rel.size ∧
        (reliable_mark_deleted rel i).room = rel.room := by
  obtain ⟨hi, hmatch, -⟩ := List.findIdx?_eq_some_iff_getElem.mp hi
  obtain ⟨hactive, hid⟩ := Bool.and_eq_true_iff.mp hmatch
  have he := List.getElem?_eq_getElem hi
  refine ⟨rel.array[i], he, beq_iff_eq.mp hid, ?_⟩
  unfold reliable_mark_deleted
  rw [he]
  refine ⟨?_, by simp [beq_iff_eq.mp hid], size_setEntry, rfl⟩
  exact (Slots.filter_set_release he hactive rfl).map ReliableEntry.held

theorem get_entry_sequenced_none_iff : reliable_get_entry_sequenced rel = none ↔
    ∀ h ∈ rel.held, h.packet_id ≠ rel.packet_id := by
  unfold reliable_get_entry_sequenced
  rw [List.findIdx?_eq_none_iff]
  refine ⟨fun hall h hh heq => ?_, fun hall e he => ?_⟩
  · obtain ⟨e, he, hactive, rfl⟩ := mem_held.mp hh
    have hno := hall e he
    simp [hactive, show e.packet_id = rel.packet_id from heq] at hno
  · by_contra hmatch
    obtain ⟨hactive, hid⟩ := Bool.and_eq_true_iff.mp (Bool.not_eq_false _ |>.mp hmatch)
    exact hall e.held (mem_held.mpr ⟨e, he, hactive, rfl⟩) (beq_iff_eq.mp hid)

end AllInSafe.ControlChannel
