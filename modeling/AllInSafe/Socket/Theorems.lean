import AllInSafe.Library.PrefixCode
import AllInSafe.Socket.StreamBuf

/-!
# Packets are put together as they were sent
-/

namespace AllInSafe.Socket
open AllInSafe.Library

variable {sb sb' : StreamBuf} {added chunk stream tail : List UInt8} {packets : List (List UInt8)} {p : List UInt8}
  {c c' : Connection} {maxlen capacity n : Nat}

/-! ## Packets on the wire -/

/-- A packet that the other side takes. -/
def Valid (maxlen : Nat) (p : List UInt8) : Prop := 0 < p.length ∧ p.length ≤ maxlen ∧ p.length < 2 ^ 16

instance : Decidable (Valid maxlen p) := inferInstanceAs (Decidable (_ ∧ _ ∧ _))

def frame (p : List UInt8) : List UInt8 := BigEndian.bytes 2 p.length ++ p

theorem write_of_valid (h : Valid maxlen p) : link_socket_write_tcp maxlen p = some (frame p) := by
  obtain ⟨-, hle, hlt⟩ := h
  rw [link_socket_write_tcp, Nat.mod_eq_of_lt hlt]
  exact if_pos hle

/-- The length that stands in front of a stream. -/
def header (bs : List UInt8) : Nat := BigEndian.value (bs.take 2)

theorem header_append {len : Nat} (h : len < 2 ^ 16) : header (BigEndian.bytes 2 len ++ tail) = len := by
  rw [header, List.take_left' (BigEndian.length_bytes 2 len)]
  exact BigEndian.value_bytes_of_lt h

theorem frame_free : PrefixFree (Valid maxlen) frame := by
  intro p q t u hp hq h
  have hlength : p.length = q.length := by
    have hheader := congrArg header h
    rwa [frame, frame, List.append_assoc, List.append_assoc, header_append hp.2.2, header_append hq.2.2] at hheader
  rw [frame, frame, List.append_assoc, List.append_assoc, hlength] at h
  exact (List.append_inj (List.append_cancel_left h) hlength).1

/-- A length that no packet has stands in front of the stream. -/
def Bad (maxlen : Nat) (stream : List UInt8) : Prop :=
  2 ≤ stream.length ∧ (header stream = 0 ∨ maxlen < header stream)

instance : Decidable (Bad maxlen stream) := inferInstanceAs (Decidable (_ ∧ (_ ∨ _)))

theorem Bad.not_frame (h : Bad maxlen tail) (hp : Valid maxlen p) : tail ≠ frame p ++ chunk := by
  rintro rfl
  obtain ⟨-, hbad⟩ := h
  rw [frame, List.append_assoc, header_append hp.2.2] at hbad
  obtain ⟨hpos, hle, -⟩ := hp
  omega

/-! ## The states of a stream buffer -/

/-- The bytes that have been received and not been read, with the length that has been taken off. -/
def pending (sb : StreamBuf) : List UInt8 :=
  (match sb.len with
    | none => []
    | some len => BigEndian.bytes 2 len) ++ sb.buf ++ sb.residual

/-- A buffer that waits for the rest of a packet. -/
structure Partial (sb : StreamBuf) : Prop where
  residual : sb.residual = []
  formed : sb.residual_fully_formed = false
  offset : sb.offset = if sb.len = none then 0 else 2
  unknown : sb.len = none → sb.buf.length < 2
  known : ∀ len, sb.len = some len → 0 < len ∧ len ≤ sb.maxlen ∧ len < 2 ^ 16 ∧ sb.buf.length < len

/-- A buffer with a packet, and what has been received behind it. -/
structure Formed (sb : StreamBuf) : Prop where
  packet : ∃ len, sb.len = some len ∧ 0 < len ∧ len ≤ sb.maxlen ∧ len < 2 ^ 16 ∧ sb.buf.length = len
  residual : sb.residual.length ≤ sb.maxlen

/-- A buffer whose packet has been read. -/
structure Idle (sb : StreamBuf) : Prop where
  reset : stream_buf_reset sb = sb
  residual : sb.residual.length ≤ sb.maxlen

/-- The room that is left for the rest of a packet. -/
theorem partial_set_next (h : Partial sb) (hmaxlen : 2 ≤ sb.maxlen) (hcapacity : sb.maxlen + 2 ≤ sb.capacity) :
    stream_buf_set_next sb = some { sb with next := some (sb.len.getD sb.maxlen - sb.buf.length) } := by
  have hoffset := h.offset
  have hunknown := h.unknown
  have hknown := h.known
  unfold stream_buf_set_next
  refine if_pos ?_
  cases hlen : sb.len with
  | none =>
      have hshort := hunknown hlen
      rw [hlen, if_pos rfl] at hoffset
      rw [hoffset, Option.getD_none]
      omega
  | some len =>
      obtain ⟨-, hle, -, hlt⟩ := hknown len hlen
      rw [hlen, if_neg (by simp)] at hoffset
      rw [hoffset, Option.getD_some]
      omega

/-- A buffer between two reads, which may hold more than one packet needs. -/
structure Filled (sb : StreamBuf) : Prop where
  residual : sb.residual = []
  formed : sb.residual_fully_formed = false
  offset : sb.offset = if sb.len = none then 0 else 2
  unknown : sb.len = none → sb.buf.length < 2
  known : ∀ len, sb.len = some len → 0 < len ∧ len ≤ sb.maxlen ∧ len < 2 ^ 16 ∧ sb.buf.length ≤ len + sb.maxlen

/-- What becomes of the bytes of a buffer: a packet is complete, or its rest is missing. -/
def Completes (sb : StreamBuf) (formed : Bool) (sb' : StreamBuf) : Prop :=
  sb'.maxlen = sb.maxlen ∧ sb'.capacity = sb.capacity ∧ sb'.error = sb.error ∧ pending sb' = pending sb ∧
    (formed = true ∧ Formed sb' ∨
      formed = false ∧ Partial sb' ∧ sb'.next = some (sb'.len.getD sb'.maxlen - sb'.buf.length))

theorem stream_buf_complete_cases (h : Filled sb) (hmaxlen : 2 ≤ sb.maxlen) (hcapacity : sb.maxlen + 2 ≤ sb.capacity) :
    ∃ formed sb', stream_buf_complete sb = some (formed, sb') ∧ Completes sb formed sb' := by
  unfold stream_buf_complete
  by_cases hcomplete : (sb.len.any fun len => len > 0 && sb.buf.length ≥ len) = true
  · rw [if_pos hcomplete]
    obtain ⟨len, hlen, henough⟩ := (Option.any_eq_true _ _).mp hcomplete
    obtain ⟨hpos, hle, hlt, hshort⟩ := h.known len hlen
    have henough' : len ≤ sb.buf.length := by simpa [hpos] using henough
    simp only [hlen, Option.getD_some]
    rw [if_pos (by omega)]
    refine ⟨_, _, rfl, rfl, rfl, rfl, ?_, .inl ⟨rfl, ⟨len, rfl, hpos, hle, hlt, ?_⟩, ?_⟩⟩
    · simp [pending, hlen, h.residual]
    · rw [List.length_take]
      omega
    · simp only [List.length_drop]
      omega
  · rw [if_neg hcomplete]
    have hpart : Partial sb := by
      refine ⟨h.residual, h.formed, h.offset, h.unknown, fun len hlen => ?_⟩
      obtain ⟨hpos, hle, hlt, -⟩ := h.known len hlen
      refine ⟨hpos, hle, hlt, not_le.mp fun henough => hcomplete ?_⟩
      simp [hlen, hpos, henough]
    rw [partial_set_next hpart hmaxlen hcapacity]
    exact ⟨_, _, rfl, rfl, rfl, rfl, rfl, .inr ⟨rfl,
      ⟨hpart.residual, hpart.formed, hpart.offset, hpart.unknown, hpart.known⟩, rfl⟩⟩

/-- A buffer that bytes are added to. -/
structure Takes (sb : StreamBuf) (added : List UInt8) : Prop where
  residual : sb.residual = []
  formed : sb.residual_fully_formed = false
  offset : sb.offset = if sb.len = none then 0 else 2
  unknown : sb.len = none → (sb.buf ++ added).length ≤ sb.maxlen
  known : ∀ len, sb.len = some len → 0 < len ∧ len ≤ sb.maxlen ∧ len < 2 ^ 16 ∧ (sb.buf ++ added).length ≤ len

/-- The length is wrong, or the bytes are kept. -/
theorem stream_buf_added_cases (h : Takes sb added) (hmaxlen : 2 ≤ sb.maxlen)
    (hcapacity : sb.maxlen + 2 ≤ sb.capacity) :
    ∃ formed sb', stream_buf_added added sb = some (formed, sb') ∧
      ((formed = false ∧ sb'.error = true ∧ sb'.maxlen = sb.maxlen ∧ sb'.capacity = sb.capacity ∧ Partial sb' ∧
          Bad sb.maxlen (pending sb ++ added)) ∨
        Completes { sb with buf := sb.buf ++ added } formed sb') := by
  unfold stream_buf_added
  by_cases hreads : sb.len = none ∧ 2 ≤ (sb.buf ++ added).length
  · obtain ⟨hlen, hlong⟩ := hreads
    simp only [hlen, hlong, and_self, if_true]
    have hvalue := BigEndian.value_lt ((sb.buf ++ added).take 2)
    have hbytes := BigEndian.bytes_value ((sb.buf ++ added).take 2)
    rw [List.length_take, Nat.min_eq_left hlong] at hvalue hbytes
    have hpending : pending sb ++ added = sb.buf ++ added := by simp [pending, hlen, h.residual]
    generalize hl : BigEndian.value ((sb.buf ++ added).take 2) = len at *
    by_cases hbad : len < 1 ∨ len > sb.maxlen
    · rw [if_pos hbad]
      refine ⟨_, _, rfl, .inl ⟨rfl, rfl, rfl, rfl, ⟨h.residual, rfl, rfl, fun _ => Nat.two_pos, nofun⟩, ?_⟩⟩
      rw [hpending]
      refine ⟨hlong, ?_⟩
      rw [header, hl]
      omega
    · rw [if_neg hbad]
      have hunknown := h.unknown hlen
      obtain ⟨formed, sb', hsome, hcompletes⟩ := @stream_buf_complete_cases
        { sb with len := some len, buf := (sb.buf ++ added).drop 2, offset := sb.offset + 2 }
        ⟨h.residual, h.formed, by simp [h.offset, hlen], by simp, fun l hl => by
          cases hl
          simp only [List.length_drop]
          omega⟩ hmaxlen hcapacity
      refine ⟨formed, sb', hsome, .inr ?_⟩
      obtain ⟨hmax, hcap, herror, hsame, hrest⟩ := hcompletes
      refine ⟨hmax, hcap, herror, hsame.trans ?_, hrest⟩
      simp only [pending, h.residual, List.append_nil, List.nil_append]
      rw [hbytes, List.take_append_drop]
  · rw [if_neg hreads]
    obtain ⟨formed, sb', hsome, hcompletes⟩ := @stream_buf_complete_cases { sb with buf := sb.buf ++ added }
      ⟨h.residual, h.formed, h.offset, fun hlen => not_le.mp fun hlong => hreads ⟨hlen, hlong⟩, fun len hlen => by
        obtain ⟨hpos, hle, hlt, hshort⟩ := h.known len hlen
        exact ⟨hpos, hle, hlt, hshort.trans (Nat.le_add_right _ _)⟩⟩ hmaxlen hcapacity
    exact ⟨formed, sb', hsome, .inr hcompletes⟩

theorem Bad.append (h : Bad maxlen tail) : Bad maxlen (tail ++ chunk) := by
  obtain ⟨hlong, hheader⟩ := h
  have htake : (tail ++ chunk).take 2 = tail.take 2 := List.take_append_of_le_length hlong
  refine ⟨by rw [List.length_append]; omega, ?_⟩
  rwa [header, htake]

/-- A complete packet is read, and what stands behind it stays. -/
theorem Formed.read (h : Formed sb) : pending sb = frame sb.buf ++ pending (stream_buf_reset sb) ∧
    Valid sb.maxlen sb.buf ∧ Idle (stream_buf_reset sb) := by
  obtain ⟨len, hlen, hpos, hle, hlt, hlength⟩ := h.packet
  refine ⟨?_, ⟨by omega, by omega, by omega⟩, ⟨rfl, h.residual⟩⟩
  simp [pending, hlen, frame, hlength, stream_buf_reset]

theorem Idle.fields (h : Idle sb) : sb.residual_fully_formed = false ∧ sb.buf = [] ∧ sb.offset = 0 ∧ sb.len = none := by
  have hreset := h.reset
  refine ⟨?_, ?_, ?_, ?_⟩ <;> rw [← hreset] <;> rfl

/-- What the setup finds: a wrong length, a packet behind the last one, or nothing but the beginning of one. -/
theorem read_setup_cases (h : Idle sb ∨ Partial sb) (hmaxlen : 2 ≤ sb.maxlen)
    (hcapacity : sb.maxlen + 2 ≤ sb.capacity) :
    ∃ needed sb', stream_buf_read_setup_dowork sb = some (needed, sb') ∧ sb'.maxlen = sb.maxlen ∧
      sb'.capacity = sb.capacity ∧
      (sb'.error = true ∧ Bad sb.maxlen (pending sb) ∨
        sb'.error = sb.error ∧ pending sb' = pending sb ∧
          (needed = false ∧ Formed sb' ∧ sb'.residual_fully_formed = true ∨
            needed = true ∧ Partial sb' ∧ sb'.next = some (sb'.len.getD sb'.maxlen - sb'.buf.length))) := by
  have hwait : ∀ sb, Partial sb → 2 ≤ sb.maxlen → sb.maxlen + 2 ≤ sb.capacity →
      stream_buf_read_setup_dowork sb = some (true, { sb with next := some (sb.len.getD sb.maxlen - sb.buf.length) }) := by
    intro sb hpart hmaxlen hcapacity
    simp [stream_buf_read_setup_dowork, hpart.residual, hpart.formed, partial_set_next hpart hmaxlen hcapacity]
  by_cases hresidual : sb.residual = []
  · have hpart : Partial sb := by
      refine h.elim (fun hidle => ?_) id
      obtain ⟨hformed, hbuf, hoffset, hlen⟩ := hidle.fields
      exact ⟨hresidual, hformed, by simp [hoffset, hlen], by simp [hbuf], by simp [hlen]⟩
    exact ⟨_, _, hwait sb hpart hmaxlen hcapacity, rfl, rfl, .inr ⟨rfl, rfl, .inr ⟨rfl,
      ⟨hpart.residual, hpart.formed, hpart.offset, hpart.unknown, hpart.known⟩, rfl⟩⟩⟩
  · have hidle : Idle sb := h.resolve_right fun hpart => hresidual hpart.residual
    obtain ⟨hformed, hbuf, hoffset, hlen⟩ := hidle.fields
    have hshort := hidle.residual
    have hpending : pending sb = sb.residual := by simp [pending, hlen, hbuf]
    obtain ⟨formed, sb', hsome, hcases⟩ := @stream_buf_added_cases
      { sb with buf := sb.buf ++ sb.residual, residual := [] }
      [] ⟨rfl, hformed, by simp [hoffset, hlen], fun _ => by simpa [hbuf] using hshort,
        by simp [hlen]⟩ hmaxlen hcapacity
    have hmoved : stream_buf_read_setup_dowork sb =
        if !formed then (stream_buf_set_next { sb' with residual_fully_formed := formed }).map fun sb => (true, sb)
        else some (false, { sb' with residual_fully_formed := formed }) := by
      have hfit : sb.offset + sb.buf.length + sb.residual.length ≤ sb.capacity := by
        rw [hoffset, hbuf, List.length_nil]
        omega
      rw [stream_buf_read_setup_dowork, if_pos ⟨by simpa using hresidual, by simp [hformed]⟩, if_pos hfit, hsome]
      rfl
    rw [hmoved]
    rcases hcases with ⟨rfl, herror, hmax, hcap, hpart, hbad⟩ | ⟨hmax, hcap, herror, hsame, hrest⟩
    · have hpart' : Partial { sb' with residual_fully_formed := false } :=
        ⟨hpart.residual, rfl, hpart.offset, hpart.unknown, hpart.known⟩
      rw [partial_set_next hpart' (by simpa [hmax] using hmaxlen) (by simpa [hmax, hcap] using hcapacity)]
      refine ⟨_, _, rfl, hmax, hcap, .inl ⟨herror, ?_⟩⟩
      simpa [pending, hlen, hbuf] using hbad
    · have hsame' : pending sb' = pending sb := by
        rw [hsame]
        simp [pending, hlen, hbuf]
      rcases hrest with ⟨rfl, hready⟩ | ⟨rfl, hpart, hnext⟩
      · refine ⟨_, _, rfl, hmax, hcap, .inr ⟨herror, hsame', .inl ⟨rfl, ⟨hready.packet, hready.residual⟩, rfl⟩⟩⟩
      · have hpart' : Partial { sb' with residual_fully_formed := false } :=
          ⟨hpart.residual, rfl, hpart.offset, hpart.unknown, hpart.known⟩
        rw [partial_set_next hpart' (by simpa [hmax] using hmaxlen) (by simpa [hmax, hcap] using hcapacity)]
        exact ⟨_, _, rfl, hmax, hcap, .inr ⟨herror, hsame', .inr ⟨rfl,
          ⟨hpart.residual, rfl, hpart.offset, hpart.unknown, hpart.known⟩, rfl⟩⟩⟩

/-- What a read makes of the bytes of the buffer and of those that the socket gives: a packet may be taken off them. -/
structure Reads (sb : StreamBuf) (chunk : List UInt8) (packet : Option (List UInt8)) (sb' : StreamBuf) : Prop where
  maxlen : sb'.maxlen = sb.maxlen
  capacity : sb'.capacity = sb.capacity
  advances : chunk = [] → packet.isSome
  cases : sb'.error = true ∧ packet = none ∧ Bad sb.maxlen (pending sb ++ chunk) ∨
    sb'.error = sb.error ∧ (∀ p ∈ packet.toList, Valid sb.maxlen p) ∧
      pending sb ++ chunk = packet.toList.flatMap frame ++ pending sb' ∧ (Idle sb' ∨ Partial sb')

theorem Formed.reads (h : Formed sb) (hsame : pending sb = pending sb' ++ chunk) (hmaxlen : sb.maxlen = sb'.maxlen)
    (hcapacity : sb.capacity = sb'.capacity) (herror : sb.error = sb'.error) :
    Reads sb' chunk (some sb.buf) (stream_buf_reset sb) := by
  obtain ⟨hsplit, hvalid, hidle⟩ := h.read
  refine ⟨hmaxlen, hcapacity, fun _ => rfl, .inr ⟨herror, ?_, ?_, .inl hidle⟩⟩
  · simpa [hmaxlen] using hvalid
  · rw [← hsame, hsplit]
    simp

/-- A packet that has been received together with the one before it. -/
theorem read_formed (h : Formed sb) (hfully : sb.residual_fully_formed = true) :
    ∃ packet sb', link_socket_read_tcp [] sb = some (packet, sb') ∧ Reads sb [] packet sb' := by
  rw [link_socket_read_tcp, hfully, if_pos rfl]
  exact ⟨_, _, rfl, h.reads (by simp) rfl rfl rfl⟩

theorem partial_read (h : Partial sb) (hmaxlen : 2 ≤ sb.maxlen) (hcapacity : sb.maxlen + 2 ≤ sb.capacity)
    (hroom : chunk.length ≤ sb.len.getD sb.maxlen - sb.buf.length) (hchunk : chunk ≠ []) :
    ∃ packet sb', link_socket_read_tcp chunk sb = some (packet, sb') ∧ Reads sb chunk packet sb' := by
  have htakes : Takes sb chunk := by
    refine ⟨h.residual, h.formed, h.offset, fun hlen => ?_, fun len hlen => ?_⟩
    · have hshort := h.unknown hlen
      rw [hlen, Option.getD_none] at hroom
      rw [List.length_append]
      omega
    · obtain ⟨hpos, hle, hlt, hshort⟩ := h.known len hlen
      rw [hlen, Option.getD_some] at hroom
      rw [List.length_append]
      omega
  obtain ⟨formed, sb', hadded, hcases⟩ := stream_buf_added_cases htakes hmaxlen hcapacity
  rw [link_socket_read_tcp, h.formed, if_neg Bool.false_ne_true, hadded, Option.map_some]
  rcases hcases with ⟨rfl, herror, hmax, hcap, hpart, hbad⟩ | ⟨hmax, hcap, herror, hsame, hready⟩
  · exact ⟨_, _, rfl, hmax, hcap, fun hempty => absurd hempty hchunk, .inl ⟨herror, rfl, hbad⟩⟩
  · have hsame' : pending sb' = pending sb ++ chunk := by
      rw [hsame]
      simp [pending, h.residual]
    rcases hready with ⟨rfl, hformed⟩ | ⟨rfl, hpart, -⟩
    · exact ⟨_, _, rfl, hformed.reads hsame' hmax hcap herror⟩
    · exact ⟨_, _, rfl, hmax, hcap, fun hempty => absurd hempty hchunk,
        .inr ⟨herror, by simp, hsame'.symm, .inr hpart⟩⟩

/-! ## Runs -/

/-- What the packets that have been read leave of the stream: what has been received and the rest of it, or, after an
error, a length that no packet has. -/
structure Going (maxlen capacity : Nat) (stream : List UInt8) (c : Connection) : Prop where
  same_maxlen : c.sb.maxlen = maxlen
  same_capacity : c.sb.capacity = capacity
  failed : c.failed = false
  valid : ∀ p ∈ c.output, Valid maxlen p
  rest : ∃ rest, stream = c.output.flatMap frame ++ rest ∧ (c.sb.error = true ∧ Bad maxlen rest ∨
    c.sb.error = false ∧ rest = pending c.sb ++ c.wire ∧ (Idle c.sb ∨ Partial c.sb))

/-- The bytes that have not been received count twice. -/
def work (c : Connection) : Nat :=
  if c.sb.error then 0 else 1 + 2 * c.wire.length + (pending c.sb).length

theorem work_of_error (h : c.sb.error = true) : work c = 0 := by
  rw [work, h, if_pos rfl]

theorem work_of_no_error (h : c.sb.error = false) : work c = 1 + 2 * c.wire.length + (pending c.sb).length := by
  rw [work, h, if_neg Bool.false_ne_true]

theorem going_init : Going maxlen capacity stream (connection maxlen capacity stream).init :=
  ⟨rfl, rfl, rfl, by simp [connection], stream, rfl, .inr ⟨rfl, rfl, .inl ⟨rfl, Nat.zero_le _⟩⟩⟩

/-- What has been read goes to the output. -/
theorem going_reads (wire : List UInt8) {output : List (List UInt8)} {packet : Option (List UInt8)}
    (h : Reads sb chunk packet sb') (herror : sb.error = false) (hvalid : ∀ p ∈ output, Valid sb.maxlen p) :
    Going sb.maxlen sb.capacity (output.flatMap frame ++ (pending sb ++ (chunk ++ wire)))
        { sb := sb', wire := wire, output := output ++ packet.toList } ∧
      work { sb := sb', wire := wire, output := output ++ packet.toList } <
        1 + 2 * (chunk ++ wire).length + (pending sb).length := by
  obtain ⟨hmax, hcap, hadvances, ⟨herror', rfl, hbad⟩ | ⟨herror', hvalid', hsplit, hstate⟩⟩ := h
  · refine ⟨⟨hmax, hcap, rfl, by simpa using hvalid, pending sb ++ (chunk ++ wire), by simp, .inl ⟨herror', ?_⟩⟩, ?_⟩
    · rw [← List.append_assoc]
      exact hbad.append
    · rw [work_of_error herror']
      omega
  · rw [herror] at herror'
    have hlength := congrArg List.length hsplit
    rw [List.length_append, List.length_append] at hlength
    have hless : 0 < chunk.length + (packet.toList.flatMap frame).length := by
      cases packet with
      | none => exact Nat.add_pos_left (List.length_pos_of_ne_nil fun hempty => by simp [hempty] at hadvances) _
      | some p => simp [frame, BigEndian.length_bytes]
    refine ⟨⟨hmax, hcap, rfl, List.forall_mem_append.mpr ⟨hvalid, hvalid'⟩, pending sb' ++ wire, ?_,
      .inr ⟨herror', rfl, hstate⟩⟩, ?_⟩
    · rw [← List.append_assoc (pending sb), hsplit]
      simp
    · rw [work_of_no_error (by exact herror'), List.length_append]
      simp only
      omega

/-- A read takes bytes of the stream or of the buffer, and gives a packet where one is complete. -/
theorem Going.read (h : Going maxlen capacity stream c) (hmaxlen : 2 ≤ maxlen) (hcapacity : maxlen + 2 ≤ capacity)
    (hread : read c n = some c') : Going maxlen capacity stream c' ∧ work c' < work c := by
  obtain ⟨rfl, rfl, hfailed, hvalid, rest, rfl, ⟨herror, hbad⟩ | ⟨herror, rfl, hstate⟩⟩ := h
  · simp [Socket.read, herror] at hread
  · rw [work_of_no_error herror]
    unfold Socket.read at hread
    rw [if_neg (by simp [herror, hfailed])] at hread
    obtain ⟨needed, sb, hsetup, hmax, hcap, ⟨herror', hbad⟩ | ⟨herror', hpending, hready⟩⟩ :=
      read_setup_cases hstate hmaxlen hcapacity
    · rw [hsetup] at hread
      simp only [herror', if_true] at hread
      cases hread
      refine ⟨⟨hmax, hcap, hfailed, hvalid, _, rfl, .inl ⟨herror', hbad.append⟩⟩, ?_⟩
      rw [work_of_error (by exact herror')]
      omega
    · rw [hsetup] at hread
      simp only [herror', herror, Bool.false_eq_true, if_false] at hread
      rw [← hpending, ← hmax, ← hcap]
      rw [← hmax] at hmaxlen hcapacity hvalid
      rw [← hcap] at hcapacity
      rcases hready with ⟨rfl, hformed, hfully⟩ | ⟨rfl, hpart, hnext⟩
      · obtain ⟨packet, sb', hsome, hreads⟩ := read_formed hformed hfully
        simp only [Bool.false_eq_true, false_and, if_false, hsome] at hread
        cases hread
        simpa [hfailed] using going_reads c.wire hreads (herror'.trans herror) hvalid
      · by_cases hgives : 0 < n ∧ n ≤ c.wire.length ∧ (sb.next.any fun room => n ≤ room) = true
        · rw [if_neg (fun hblocked => hblocked.2 hgives)] at hread
          obtain ⟨hpos, hle, hroom⟩ := hgives
          rw [hnext, Option.any_some, decide_eq_true_eq] at hroom
          have hlength : (c.wire.take n).length = n := List.length_take_of_le hle
          obtain ⟨packet, sb', hsome, hreads⟩ := partial_read hpart hmaxlen hcapacity (hlength.trans_le hroom)
            (List.ne_nil_of_length_pos (by rwa [hlength]))
          simp only [if_true, hsome, hlength] at hread
          cases hread
          have hgoing := going_reads (c.wire.drop n) hreads (herror'.trans herror) hvalid
          rwa [List.take_append_drop, ← hfailed] at hgoing
        · rw [if_pos ⟨rfl, hgives⟩] at hread
          cases hread

/-! ## What is left of the stream -/

theorem Partial.not_bad (h : Partial sb) : ¬ Bad sb.maxlen (pending sb) := by
  rintro ⟨hlong, hheader⟩
  cases hlen : sb.len with
  | none =>
      have hshort := h.unknown hlen
      simp only [pending, hlen, h.residual, List.nil_append, List.append_nil] at hlong
      omega
  | some len =>
      obtain ⟨hpos, hle, hlt, -⟩ := h.known len hlen
      simp only [pending, hlen, List.append_assoc, header_append hlt] at hheader
      omega

theorem Partial.not_frame (h : Partial sb) (hp : Valid sb.maxlen p) : pending sb ≠ frame p ++ chunk := by
  intro hframe
  have hlength := congrArg List.length hframe
  rw [frame, List.length_append, List.length_append, BigEndian.length_bytes] at hlength
  cases hlen : sb.len with
  | none =>
      have hshort := h.unknown hlen
      simp only [pending, hlen, h.residual, List.nil_append, List.append_nil] at hlength
      omega
  | some len =>
      obtain ⟨-, -, hlt, hshort⟩ := h.known len hlen
      have hheader := congrArg header hframe
      simp only [pending, hlen, frame, List.append_assoc, header_append hlt, header_append hp.2.2] at hheader
      simp only [pending, hlen, h.residual, List.append_nil, List.length_append, BigEndian.length_bytes] at hlength
      omega

/-- The packets that have been read are the first ones of the stream. -/
theorem Going.later (h : Going maxlen capacity (packets.flatMap frame ++ tail) c)
    (hpackets : ∀ p ∈ packets, Valid maxlen p)
    (htail : ∀ p t, Valid maxlen p → tail ≠ frame p ++ t) :
    ∃ later, packets = c.output ++ later ∧ (c.sb.error = true ∧ Bad maxlen (later.flatMap frame ++ tail) ∨
      c.sb.error = false ∧ later.flatMap frame ++ tail = pending c.sb ++ c.wire ∧ (Idle c.sb ∨ Partial c.sb)) := by
  obtain ⟨rest, hstream, hrest⟩ := h.rest
  obtain ⟨later, hlater, rfl⟩ := frame_free.rest htail h.valid hpackets hstream.symm
  exact ⟨later, hlater, hrest⟩

/-- Where what is left does not begin with a packet, all packets have been read. -/
theorem read_all {later : List (List UInt8)} (h : packets = c.output ++ later)
    (hpackets : ∀ p ∈ packets, Valid maxlen p)
    (hleft : ∀ p t, Valid maxlen p → later.flatMap frame ++ tail ≠ frame p ++ t) : c.output = packets ∧ later = [] := by
  cases later with
  | nil => exact ⟨by simp [h], rfl⟩
  | cons p later =>
      have hp : Valid maxlen p := hpackets p (by simp [h])
      exact absurd (List.append_assoc _ _ _) (hleft p _ hp)

/-- A connection stops with an error, or when the other side sends nothing more: then all packets have been read. -/
theorem Going.progress (h : Going maxlen capacity (packets.flatMap frame ++ tail) c)
    (hpackets : ∀ p ∈ packets, Valid maxlen p) (htail : ∀ p t, Valid maxlen p → tail ≠ frame p ++ t)
    (hmaxlen : 2 ≤ maxlen) (hcapacity : maxlen + 2 ≤ capacity)
    (hunfinished : ¬ (c.output = packets ∧ (c.sb.error = true ↔ Bad maxlen tail))) :
    ∃ n c', Socket.read c n = some c' := by
  obtain ⟨later, hlater, ⟨herror, hbad⟩ | ⟨herror, hleft, hstate⟩⟩ := h.later hpackets htail
  · obtain ⟨houtput, rfl⟩ := read_all hlater hpackets fun p t hp => hbad.not_frame hp
    exact absurd ⟨houtput, fun _ => hbad, fun _ => herror⟩ hunfinished
  · obtain ⟨rfl, rfl, hfailed, -, -⟩ := h
    obtain ⟨needed, sb, hsetup, hmax, hcap, ⟨herror', hbad⟩ | ⟨herror', hpending, hready⟩⟩ :=
      read_setup_cases hstate hmaxlen hcapacity
    · exact ⟨0, _, by
        rw [Socket.read, if_neg (by simp [herror, hfailed]), hsetup]
        exact if_pos herror'⟩
    · rcases hready with ⟨rfl, hformed, hfully⟩ | ⟨rfl, hpart, hnext⟩
      · obtain ⟨packet, sb', hsome, -⟩ := read_formed hformed hfully
        refine ⟨0, { c with sb := sb', output := c.output ++ packet.toList }, ?_⟩
        rw [Socket.read, if_neg (by simp [herror, hfailed]), hsetup]
        simp [herror', herror, hsome]
      · cases hwire : c.wire with
        | nil =>
            rw [hwire, List.append_nil, ← hpending] at hleft
            rw [← hmax] at hpackets hunfinished
            obtain ⟨houtput, rfl⟩ := read_all hlater hpackets fun p t hp => hleft ▸ hpart.not_frame hp
            refine absurd ⟨houtput, fun hwrong => ?_, fun hbad => ?_⟩ hunfinished
            · rw [herror] at hwrong
              cases hwrong
            · rw [List.flatMap_nil, List.nil_append] at hleft
              exact absurd (hleft ▸ hbad) hpart.not_bad
        | cons b wire =>
            have hroom : 1 ≤ sb.len.getD sb.maxlen - sb.buf.length := by
              cases hlen : sb.len with
              | none =>
                  have hshort := hpart.unknown hlen
                  rw [Option.getD_none]
                  omega
              | some len =>
                  obtain ⟨-, -, -, hshort⟩ := hpart.known len hlen
                  rw [Option.getD_some]
                  omega
            obtain ⟨packet, sb', hsome, -⟩ := partial_read hpart (by rwa [hmax]) (by rwa [hmax, hcap])
              (show [b].length ≤ _ from hroom) (List.cons_ne_nil b [])
            refine ⟨1, { c with sb := sb', wire := wire, output := c.output ++ packet.toList }, ?_⟩
            rw [Socket.read, if_neg (by simp [herror, hfailed]), hsetup]
            simp [herror', herror, hnext, hroom, hwire, hsome]

/-- What the writer takes without a failed assertion, it writes as packets that the reader takes. -/
theorem written_eq {written : List (List UInt8)} (hwritten : packets.mapM (link_socket_write_tcp maxlen) = some written)
    (hlength : ∀ p ∈ packets, 0 < p.length ∧ p.length < 2 ^ 16) :
    (∀ p ∈ packets, Valid maxlen p) ∧ written.flatten = packets.flatMap frame := by
  induction packets generalizing written with
  | nil =>
      cases hwritten
      simp
  | cons p packets ih =>
      obtain ⟨⟨hpos, hlt⟩, hlengths⟩ := List.forall_mem_cons.mp hlength
      rw [List.mapM_cons, Option.bind_eq_bind, Option.bind_eq_some_iff] at hwritten
      obtain ⟨bytes, hp, hrest⟩ := hwritten
      rw [Option.bind_eq_bind, Option.bind_eq_some_iff] at hrest
      obtain ⟨others, hothers, hcons⟩ := hrest
      cases hcons
      obtain ⟨hvalid, hflatten⟩ := ih hothers hlengths
      have hp' : Valid maxlen p := by
        rw [link_socket_write_tcp, Nat.mod_eq_of_lt hlt] at hp
        split at hp
        · rename_i hle
          exact ⟨hpos, hle, hlt⟩
        · cases hp
      rw [write_of_valid hp'] at hp
      cases hp
      exact ⟨List.forall_mem_cons.mpr ⟨hp', hvalid⟩, by rw [List.flatten_cons, List.flatMap_cons, hflatten]⟩

/-- However the socket cuts a stream into pieces, the packets that are read are those that have been written to it. No
assertion fails, and all of them are read; an error is found exactly where what stands behind them begins with a length
that no packet has. -/
theorem stream_reassembled {written : List (List UInt8)} (hmaxlen : 2 ≤ maxlen) (hcapacity : maxlen + 2 ≤ capacity)
    (hwritten : packets.mapM (link_socket_write_tcp maxlen) = some written)
    (hlength : ∀ p ∈ packets, 0 < p.length ∧ p.length < 2 ^ 16)
    (htail : ∀ p t, Valid maxlen p → tail ≠ frame p ++ t) :
    (∀ ns c, (connection maxlen capacity (written.flatten ++ tail)).runFrom
        (connection maxlen capacity (written.flatten ++ tail)).init ns = some c →
      c.output <+: packets ∧ c.failed = false ∧ (c.sb.error = true → c.output = packets ∧ Bad maxlen tail)) ∧
    (connection maxlen capacity (written.flatten ++ tail)).Ends fun c =>
      c.output = packets ∧ (c.sb.error = true ↔ Bad maxlen tail) := by
  obtain ⟨hpackets, hflatten⟩ := written_eq hwritten hlength
  rw [hflatten]
  have hstep : ∀ c n c', Going maxlen capacity (packets.flatMap frame ++ tail) c →
      (connection maxlen capacity (packets.flatMap frame ++ tail)).step c n = some c' →
      Going maxlen capacity (packets.flatMap frame ++ tail) c' ∧ work c' < work c :=
    fun _ _ _ hgoing => hgoing.read hmaxlen hcapacity
  refine ⟨fun ns c hrun => ?_, Machine.ends_of_measure going_init hstep fun c hgoing =>
    hgoing.progress hpackets htail hmaxlen hcapacity⟩
  have hgoing := (Machine.measure_bounds hstep going_init hrun).1
  obtain ⟨later, hlater, hrest⟩ := hgoing.later hpackets htail
  refine ⟨⟨later, hlater.symm⟩, hgoing.failed, fun herror => ?_⟩
  rcases hrest with ⟨-, hbad⟩ | ⟨hno, -, -⟩
  · obtain ⟨houtput, rfl⟩ := read_all hlater hpackets fun p t hp => hbad.not_frame hp
    exact ⟨houtput, hbad⟩
  · rw [herror] at hno
    cases hno

theorem stream_reassembled_two :
    (connection 8 10 ([0, 3, 1, 2, 3] ++ [0, 2, 4, 5] ++ [0, 9])).Ends fun c =>
      c.output = [[1, 2, 3], [4, 5]] ∧ (c.sb.error = true ↔ Bad 8 [0, 9]) :=
  (stream_reassembled (by decide) (by decide)
    (show [[1, 2, 3], [4, 5]].mapM (link_socket_write_tcp 8) = some [[0, 3, 1, 2, 3], [0, 2, 4, 5]] from rfl)
    (by decide) fun _ _ hp => Bad.not_frame (by decide) hp).2

example : ((connection 8 10 [0, 3, 1, 2, 3, 0, 2, 4, 5, 0, 9]).runFrom
    (connection 8 10 [0, 3, 1, 2, 3, 0, 2, 4, 5, 0, 9]).init [1, 7, 1]).map (·.output) =
    some [[1, 2, 3], [4, 5]] := by
  decide

end AllInSafe.Socket
