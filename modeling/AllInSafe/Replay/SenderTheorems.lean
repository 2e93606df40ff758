import AllInSafe.Replay.Theorems

/-!
# From the sender to the receiver

The packet ids that a sender writes go up, so that a receiver takes all that arrive in their order, and no two packets
look alike to it.
-/

namespace AllInSafe.Replay
open AllInSafe.Library

/-- The packet ids on the wire, written at the times of the list. A packet without one is dropped. -/
def headers (long_form : Bool) (p : PacketIdSend) : List Int → List (List UInt8)
  | [] => []
  | now :: clocks =>
      (packet_id_write now long_form p).1.toList ++ headers long_form (packet_id_write now long_form p).2 clocks

/-- What a receiver reads. -/
def readPin (long_form : Bool) (header : List UInt8) : Option PacketIdNet :=
  (packet_id_read long_form header).map Prod.fst

/-- A packet id comes after another one. -/
def PacketIdNet.Before (pin pin' : PacketIdNet) : Prop :=
  pin.time < pin'.time ∨ pin.time = pin'.time ∧ pin.id < pin'.id

variable {long_form : Bool} {p : PacketIdSend} {now : Int} {clocks : List Int} {header rest : List UInt8}

/-! ## The sender -/

/-- What the packet ids of the sender come after. -/
def PacketIdSend.last (long_form : Bool) (p : PacketIdSend) : PacketIdNet := ⟨p.id, if long_form then p.time else 0⟩

/-- A sender whose numbers fit on the wire; it has no time before its first packet. -/
structure PacketIdSend.Sound (p : PacketIdSend) : Prop where
  id_le : p.id ≤ PACKET_ID_MAX
  time_nonneg : 0 ≤ p.time
  time_lt : p.time < 2 ^ 32
  started : p.time = 0 → p.id = 0

/-- A packet id is the next one after another one. -/
def PacketIdNet.Follows (pin pin' : PacketIdNet) : Prop :=
  pin.time = pin'.time ∧ pin'.id = pin.id + 1 ∨ pin.time < pin'.time ∧ pin'.id = 1

theorem PacketIdNet.Follows.before {a b : PacketIdNet} (h : a.Follows b) : a.Before b ∧ b.id ≠ 0 := by
  unfold PacketIdNet.Before
  rcases h with ⟨htime, hid⟩ | ⟨htime, hid⟩
  · exact ⟨.inr ⟨htime, by omega⟩, by omega⟩
  · exact ⟨.inl htime, by omega⟩

theorem PacketIdNet.Before.trans {a b c : PacketIdNet} (h : a.Before b) (h' : b.Before c) : a.Before c := by
  unfold PacketIdNet.Before at *
  omega

theorem PacketIdNet.Before.irrefl {a : PacketIdNet} (h : a.Before a) : False := by
  unfold PacketIdNet.Before at h
  omega

theorem read_write (hid : p.id ≤ PACKET_ID_MAX) (htime : 0 ≤ p.time ∧ p.time < 2 ^ 32) :
    packet_id_read long_form (BigEndian.bytes 4 p.id ++
      (if long_form then BigEndian.bytes 4 (BitVec.ofInt 32 p.time).toNat else []) ++ rest) =
      some (p.last long_form, rest) := by
  have hid' : BigEndian.value (BigEndian.bytes 4 p.id) = p.id :=
    BigEndian.value_bytes_of_lt (by unfold PACKET_ID_MAX at hid; omega)
  have htime' : (BigEndian.value (BigEndian.bytes 4 (p.time % 4294967296).toNat) : Int) = p.time := by
    rw [BigEndian.value_bytes_of_lt (by omega)]
    omega
  cases long_form with
  | false => simp [packet_id_read, PacketIdSend.last, hid']
  | true => simp [packet_id_read, PacketIdSend.last, hid', htime']

/-- A packet id is the next one, or there is none any more. -/
theorem packet_id_send_update_cases (h : p.Sound) (hnow : 0 < now ∧ now < 2 ^ 32) : ∃ p', p'.Sound ∧
    (packet_id_send_update now long_form p = (true, p') ∧ (p.last long_form).Follows (p'.last long_form) ∨
      packet_id_send_update now long_form p = (false, p') ∧ p'.last long_form = p.last long_form) := by
  obtain ⟨hid, hnonneg, hlt, hstarted⟩ := h
  have hmax : PACKET_ID_MAX = 0xFFFFFFFF := rfl
  unfold packet_id_send_update
  by_cases hfirst : p.time = 0
  · have hzero := hstarted hfirst
    simp only [hfirst, if_true, hzero, show (0 : Nat) ≠ PACKET_ID_MAX by decide, if_false]
    refine ⟨_, ⟨by simp [hmax], hnow.1.le, hnow.2, fun h => absurd h hnow.1.ne'⟩, .inl ⟨rfl, ?_⟩⟩
    simp only [PacketIdSend.last, PacketIdNet.Follows, hzero, hfirst]
    split_ifs <;> simp [hnow.1]
  · simp only [hfirst, if_false]
    by_cases hlast : p.id = PACKET_ID_MAX
    · rw [if_pos hlast]
      by_cases hstop : (!long_form || decide (now ≤ p.time)) = true
      · rw [if_pos hstop]
        exact ⟨p, ⟨hid, hnonneg, hlt, hstarted⟩, .inr ⟨rfl, rfl⟩⟩
      · rw [if_neg hstop]
        simp only [Bool.or_eq_true, Bool.not_eq_true', decide_eq_true_eq, not_or, Bool.not_eq_false, not_le] at hstop
        refine ⟨_, ⟨by simp [hmax], hnow.1.le, hnow.2, fun h => absurd h hnow.1.ne'⟩, .inl ⟨rfl, .inr ⟨?_, rfl⟩⟩⟩
        simpa [PacketIdSend.last, hstop.1] using hstop.2
    · rw [if_neg hlast]
      have hroom : p.id + 1 ≤ PACKET_ID_MAX := Nat.lt_of_le_of_ne hid hlast
      refine ⟨{ p with id := p.id + 1 }, ⟨hroom, hnonneg, hlt, fun h => absurd h hfirst⟩, .inl ⟨rfl, .inl ⟨rfl, rfl⟩⟩⟩

theorem packet_id_write_cases (h : p.Sound) (hnow : 0 < now ∧ now < 2 ^ 32) : ∃ p', p'.Sound ∧
    ((∃ header, packet_id_write now long_form p = (some header, p') ∧
        readPin long_form header = some (p'.last long_form) ∧ (p.last long_form).Follows (p'.last long_form)) ∨
      packet_id_write now long_form p = (none, p') ∧ p'.last long_form = p.last long_form) := by
  obtain ⟨p', hsound, ⟨hupdate, hnext⟩ | ⟨hupdate, hsame⟩⟩ := @packet_id_send_update_cases long_form p now h hnow
  · refine ⟨p', hsound, .inl ⟨_, by simp only [packet_id_write, hupdate]; rfl, ?_, hnext⟩⟩
    have hread := @read_write long_form p' [] hsound.id_le ⟨hsound.time_nonneg, hsound.time_lt⟩
    rw [List.append_nil] at hread
    rw [readPin, hread]
    rfl
  · exact ⟨p', hsound, .inr ⟨by simp only [packet_id_write, hupdate], hsame⟩⟩

/-- The packet ids on the wire follow each other. -/
theorem headers_follow (h : p.Sound) (hclocks : ∀ now ∈ clocks, 0 < now ∧ now < 2 ^ 32) :
    ∃ pins, (headers long_form p clocks).map (readPin long_form) = pins.map some ∧
      (p.last long_form :: pins).IsChain PacketIdNet.Follows := by
  induction clocks generalizing p with
  | nil => exact ⟨[], rfl, .singleton _⟩
  | cons now clocks ih =>
      obtain ⟨hnow, hclocks⟩ := List.forall_mem_cons.mp hclocks
      obtain ⟨p', hsound, ⟨header, hwrite, hread, hnext⟩ | ⟨hwrite, hsame⟩⟩ :=
        @packet_id_write_cases long_form p now h hnow
      · obtain ⟨pins, hpins, hchain⟩ := ih hsound hclocks
        exact ⟨p'.last long_form :: pins, by simp [headers, hwrite, hread, hpins], .cons_cons hnext hchain⟩
      · obtain ⟨pins, hpins, hchain⟩ := ih hsound hclocks
        exact ⟨pins, by simpa [headers, hwrite] using hpins, hsame ▸ hchain⟩

/-- The packet ids that follow each other go up. -/
theorem ascend_of_chain {pins : List PacketIdNet} (h : pins.IsChain PacketIdNet.Follows) :
    pins.Pairwise PacketIdNet.Before :=
  have : IsTrans PacketIdNet PacketIdNet.Before := ⟨fun _ _ _ => PacketIdNet.Before.trans⟩
  (h.imp fun _ _ hnext => hnext.before.1).pairwise

theorem ne_zero_of_chain {pin : PacketIdNet} {pins : List PacketIdNet} (h : (pin :: pins).IsChain PacketIdNet.Follows) :
    ∀ pin' ∈ pins, pin'.id ≠ 0 := by
  induction pins generalizing pin with
  | nil => simp
  | cons next pins ih =>
      rw [List.isChain_cons_cons] at h
      exact List.forall_mem_cons.mpr ⟨h.1.before.2, ih h.2⟩

/-! ## The receiver -/

variable {q : PacketIdRec} {arrivals : List Arrival}

/-- A packet id that comes after all that have been taken is taken. -/
theorem Represents.test_of_before {l : CircularList Int} {w : ReplayWindow Int} {pin : PacketIdNet}
    (h : Represents q l w) (hpos : 0 < q.seq_backtrack) (hbefore : PacketIdNet.Before ⟨q.id, q.time⟩ pin)
    (hid : pin.id ≠ 0) : packet_id_test pin q = true := by
  refine h.test_iff.mpr ⟨hid, ?_⟩
  have hexpired := h.sound.expired_le
  rcases hbefore with hnew | ⟨hera, hlast⟩
  · exact .inl (h.time ▸ hnew)
  · have hlast' : w.top < pin.id := h.id ▸ hlast
    refine .inr ⟨h.time ▸ hera, by omega, by omega, fun hmem => ?_⟩
    obtain ⟨e, he, heq⟩ := List.mem_map.mp hmem
    exact absurd (h.sound.seen_le e he) (by omega)

/-- A receiver with a list takes every packet that comes after all before it. -/
theorem Represents.taken_eq {l : CircularList Int} {w : ReplayWindow Int} (h : Represents q l w)
    (hpos : 0 < q.seq_backtrack) (hclock : ∀ a ∈ arrivals, SEQ_EXPIRED < a.now)
    (hpairs : (⟨q.id, q.time⟩ :: arrivals.map Arrival.pin).Pairwise PacketIdNet.Before)
    (hid : ∀ a ∈ arrivals, a.pin.id ≠ 0) : taken q arrivals = arrivals := by
  induction arrivals generalizing q l w with
  | nil => rfl
  | cons a arrivals ih =>
      obtain ⟨hruns, hclock⟩ := List.forall_mem_cons.mp hclock
      obtain ⟨hid', hid⟩ := List.forall_mem_cons.mp hid
      rw [List.map_cons, List.pairwise_cons, List.forall_mem_cons] at hpairs
      obtain ⟨⟨hbefore, -⟩, hpairs⟩ := hpairs
      obtain ⟨l', hrep⟩ := h.reap_test a.now
      have hsame : (packet_id_reap_test a.now q).id = q.id ∧ (packet_id_reap_test a.now q).time = q.time := by
        unfold packet_id_reap_test
        split_ifs <;> exact ⟨rfl, rfl⟩
      have hpos' : 0 < (packet_id_reap_test a.now q).seq_backtrack := by simpa using hpos
      rw [← hsame.1, ← hsame.2] at hbefore
      have htest := hrep.test_of_before hpos' hbefore hid'
      obtain ⟨-, haccepts⟩ := hrep.test_iff.mp htest
      obtain ⟨l'', hrep'⟩ := hrep.add hpos' hruns hid' haccepts
      have htime : (packet_id_add a.now a.pin (packet_id_reap_test a.now q)).time = a.pin.time :=
        hrep'.time.trans (ReplayWindow.record_era a.now haccepts)
      have hlast : (packet_id_add a.now a.pin (packet_id_reap_test a.now q)).id = a.pin.id := by
        rw [hrep'.id, ReplayWindow.record_top]
        split_ifs with hnew
        · rfl
        · refine max_eq_right ?_
          rcases hbefore with hera | ⟨-, hle⟩
          · exact absurd (hrep.time ▸ hera) hnew
          · exact hrep.id ▸ hle.le
      rw [taken, check_replay_taken htest]
      simp only [if_true, List.singleton_append]
      rw [ih hrep' (by simpa using hpos) hclock (by rwa [hlast, htime]) hid]

/-- A receiver without a list takes every packet while none is lost. -/
theorem taken_eq_of_chain (hnone : q.seq_list = none)
    (hchain : (⟨q.id, q.time⟩ :: arrivals.map Arrival.pin).IsChain PacketIdNet.Follows) :
    taken q arrivals = arrivals := by
  induction arrivals generalizing q with
  | nil => rfl
  | cons a arrivals ih =>
      rw [List.map_cons, List.isChain_cons_cons] at hchain
      obtain ⟨hnext, hchain⟩ := hchain
      have hsame : (packet_id_reap_test a.now q).id = q.id ∧ (packet_id_reap_test a.now q).time = q.time ∧
          (packet_id_reap_test a.now q).seq_list = none := by
        unfold packet_id_reap_test packet_id_reap
        split_ifs <;> simp [hnone]
      have htest : packet_id_test a.pin (packet_id_reap_test a.now q) = true := by
        have hid := hnext.before.2
        simp only [packet_id_test, hid, if_false, hsame]
        rcases hnext with ⟨htime, hid⟩ | ⟨htime, hid⟩
        · simp [show a.pin.time = q.time from htime.symm, show a.pin.id = q.id + 1 from hid]
        · have htime' : q.time < a.pin.time := htime
          simp [htime'.ne', htime'.not_gt, hid]
      rw [taken, check_replay_taken htest]
      simp only [if_true, List.singleton_append]
      rw [ih (by simp [packet_id_add, hsame.2.2]) (by simpa [packet_id_add, hsame.2.2] using hchain)]

/-! ## Both -/

/-- The sender writes no packet id twice. The packets that arrive in their order are all taken, those behind a lost one
only with a list of sequence numbers. -/
theorem in_order_taken (long_form : Bool) (seq_backtrack : Nat) (time_backtrack : Int) (clocks : List Int)
    (arrivals : List Arrival) (hclocks : ∀ now ∈ clocks, 0 < now ∧ now < 2 ^ 32)
    (hruns : ∀ a ∈ arrivals, SEQ_EXPIRED < a.now)
    (harrive : (arrivals.map fun a => some a.pin).Sublist ((headers long_form {} clocks).map (readPin long_form)))
    (hlost : seq_backtrack = 0 → arrivals.length = (headers long_form {} clocks).length) :
    (headers long_form {} clocks).Nodup ∧
      taken (packet_id_init_recv seq_backtrack time_backtrack) arrivals = arrivals := by
  have hsound : PacketIdSend.Sound {} := ⟨by decide, le_refl _, by decide, fun _ => rfl⟩
  obtain ⟨pins, hpins, hchain⟩ := @headers_follow long_form _ _ hsound hclocks
  have hstart : PacketIdSend.last long_form {} = ⟨0, 0⟩ := by cases long_form <;> rfl
  rw [hstart] at hchain
  have hpairs := ascend_of_chain hchain
  rw [hpins] at harrive
  constructor
  · have hdistinct : ((headers long_form {} clocks).map (readPin long_form)).Nodup := by
      rw [hpins]
      refine List.Nodup.map (Option.some_injective _) (List.Pairwise.imp ?_ (List.pairwise_cons.mp hpairs).2)
      rintro a b hbefore rfl
      exact hbefore.irrefl
    exact hdistinct.of_map _
  · have harrive' : (arrivals.map Arrival.pin).Sublist pins := by
      simpa [List.filterMap_map, Function.comp_def] using harrive.filterMap id
    have hlength : pins.length = (headers long_form {} clocks).length := by
      simpa using (congrArg List.length hpins).symm
    by_cases hlist : 0 < seq_backtrack
    · have hrep := @represents_init seq_backtrack time_backtrack hlist
      refine hrep.taken_eq ?_ hruns ?_ fun a ha => ?_
      · rwa [packet_id_init_recv, dif_pos hlist]
      · rw [packet_id_init_recv, dif_pos hlist]
        exact hpairs.sublist (harrive'.cons_cons _)
      · exact ne_zero_of_chain hchain _ (harrive'.subset (List.mem_map_of_mem ha))
    · have hall : arrivals.map Arrival.pin = pins :=
        harrive'.eq_of_length (by rw [List.length_map, hlost (by omega), hlength])
      refine taken_eq_of_chain ?_ ?_
      · rw [packet_id_init_recv, dif_neg hlist]
      · rw [packet_id_init_recv, dif_neg hlist, hall]
        exact hchain

/-- Three packets are written, the second one is lost. -/
theorem in_order_taken_lost :
    let arrivals := [1, 3].map fun id => Arrival.mk 1000 ⟨id, 0⟩
    (headers false {} [1000, 1000, 1000]).Nodup ∧ taken (packet_id_init_recv 64 15) arrivals = arrivals := by
  intro arrivals
  exact in_order_taken false 64 15 [1000, 1000, 1000] arrivals (by decide) (by decide) (by decide) (by decide)

end AllInSafe.Replay
