import AllInSafe.Replay.Lemmas.Window

/-!
# Packets that arrive twice, late or out of order

What a receiver takes of the packets that arrive, whatever the network does with them.
-/

namespace AllInSafe.Replay
open AllInSafe.Library

/-- A packet id and the clock of the receiver when it arrives. -/
structure Arrival where
  now : Int
  pin : PacketIdNet
  deriving DecidableEq, Repr

def receive (p : PacketIdRec) (arrivals : List Arrival) : PacketIdRec :=
  arrivals.foldl (fun p a => (check_replay a.now a.pin p).2) p

/-- The packets that are taken, in their order. -/
def taken (p : PacketIdRec) : List Arrival → List Arrival
  | [] => []
  | a :: arrivals =>
      (if (check_replay a.now a.pin p).1 then [a] else []) ++ taken (check_replay a.now a.pin p).2 arrivals

variable {p : PacketIdRec} {w : ReplayWindow Int} {a : Arrival} {arrivals : List Arrival} {pin : PacketIdNet} {now : Int}
  {seq_backtrack : Nat} {time_backtrack : Int}

/-! ## One packet -/

theorem receive_cons : receive p (a :: arrivals) = receive (check_replay a.now a.pin p).2 arrivals := rfl

theorem check_replay_taken (h : packet_id_test pin (packet_id_reap_test now p) = true) :
    check_replay now pin p = (true, packet_id_add now pin (packet_id_reap_test now p)) := if_pos h

theorem check_replay_refused (h : ¬ packet_id_test pin (packet_id_reap_test now p) = true) :
    check_replay now pin p = (false, packet_id_reap_test now p) := if_neg h

@[simp] theorem packet_id_reap_seq_backtrack : (packet_id_reap now p).seq_backtrack = p.seq_backtrack := rfl

@[simp] theorem packet_id_reap_test_seq_backtrack : (packet_id_reap_test now p).seq_backtrack = p.seq_backtrack := by
  unfold packet_id_reap_test
  split_ifs <;> rfl

@[simp] theorem packet_id_reap_test_time_backtrack :
    (packet_id_reap_test now p).time_backtrack = p.time_backtrack := by
  unfold packet_id_reap_test
  split_ifs <;> rfl

@[simp] theorem packet_id_add_seq_backtrack : (packet_id_add now pin p).seq_backtrack = p.seq_backtrack := by
  unfold packet_id_add
  split <;> rfl

@[simp] theorem packet_id_add_time_backtrack : (packet_id_add now pin p).time_backtrack = p.time_backtrack := by
  unfold packet_id_add
  split <;> rfl

@[simp] theorem packet_id_add_last_reap : (packet_id_add now pin p).last_reap = p.last_reap := by
  unfold packet_id_add
  split <;> rfl

/-! ## No packet is taken twice -/

/-- What the receiver knows of the packets it has taken: it has a window that remembers them, or none of them is behind
the last one. -/
def Knows (p : PacketIdRec) (pins : List PacketIdNet) : Prop :=
  (∃ l w, 0 < p.seq_backtrack ∧ Represents p l w ∧ w.Remembers (pins.map fun pin => (pin.time, pin.id))) ∨
    p.seq_list = none ∧ ∀ pin ∈ pins, pin.time < p.time ∨ pin.time = p.time ∧ pin.id ≤ p.id

theorem knows_init : Knows (packet_id_init_recv seq_backtrack time_backtrack) [] := by
  by_cases h : 0 < seq_backtrack
  · refine .inl ⟨_, _, ?_, represents_init h, by simp [ReplayWindow.Remembers]⟩
    rwa [packet_id_init_recv, dif_pos h]
  · refine .inr ⟨?_, by simp⟩
    rw [packet_id_init_recv, dif_neg h]

variable {pins : List PacketIdNet}

theorem Knows.reap_test (h : Knows p pins) (now : Int) : Knows (packet_id_reap_test now p) pins := by
  rcases h with ⟨l, w, hpos, hrep, hrem⟩ | ⟨hnone, hpins⟩
  · obtain ⟨l', hl'⟩ := hrep.reap_test now
    refine .inl ⟨l', _, by simpa using hpos, hl', ?_⟩
    unfold Represents.reaped
    split_ifs
    · exact hrem.expire
    · exact hrem
  · refine .inr ?_
    unfold packet_id_reap_test packet_id_reap
    split_ifs <;> simp_all

/-- A packet that is taken is a new one, and is known afterwards. -/
theorem Knows.add (h : Knows p pins) (hclock : SEQ_EXPIRED < now) (htest : packet_id_test pin p = true) :
    pin ∉ pins ∧ Knows (packet_id_add now pin p) (pin :: pins) := by
  rcases h with ⟨l, w, hpos, hrep, hrem⟩ | ⟨hnone, hpins⟩
  · obtain ⟨hid, haccepts⟩ := hrep.test_iff.mp htest
    obtain ⟨l', hl'⟩ := hrep.add hpos hclock hid haccepts
    refine ⟨fun hmem => hrem.not_mem haccepts (List.mem_map.mpr ⟨pin, hmem, rfl⟩), .inl ⟨l', _, by simpa using hpos,
      hl', ?_⟩⟩
    exact hrem.record haccepts
  · have hid : pin.id ≠ 0 := fun hzero => by simp [packet_id_test, hzero] at htest
    simp only [packet_id_test, hid, if_false, hnone] at htest
    refine ⟨fun hmem => ?_, .inr ⟨by simp [packet_id_add, hnone], ?_⟩⟩
    · have hpin := hpins pin hmem
      split_ifs at htest with htime hback
      · simp only [Bool.or_eq_true, decide_eq_true_eq] at htest
        omega
      · omega
    · intro pin' hmem
      simp only [packet_id_add, hnone]
      rcases List.mem_cons.mp hmem with rfl | hmem
      · exact .inr ⟨rfl, le_refl _⟩
      · have hpin := hpins pin' hmem
        split_ifs at htest with htime hback
        · simp only [Bool.or_eq_true, decide_eq_true_eq] at htest
          omega
        · omega

theorem Knows.taken (h : Knows p pins) (hclock : ∀ a ∈ arrivals, SEQ_EXPIRED < a.now) :
    ((taken p arrivals).map Arrival.pin).Nodup ∧ ∀ pin ∈ (taken p arrivals).map Arrival.pin, pin ∉ pins := by
  induction arrivals generalizing p pins with
  | nil => simp [Replay.taken]
  | cons a arrivals ih =>
      rw [List.forall_mem_cons] at hclock
      have hreaped := h.reap_test a.now
      by_cases htest : packet_id_test a.pin (packet_id_reap_test a.now p) = true
      · obtain ⟨hfresh, hadded⟩ := hreaped.add hclock.1 htest
        obtain ⟨hnodup, hlater⟩ := ih hadded hclock.2
        simp only [Replay.taken, check_replay_taken htest, if_true, List.singleton_append, List.map_cons]
        refine ⟨List.nodup_cons.mpr ⟨fun hmem => hlater _ hmem List.mem_cons_self, hnodup⟩, ?_⟩
        rw [List.forall_mem_cons]
        exact ⟨hfresh, fun pin hmem hbefore => hlater pin hmem (List.mem_cons_of_mem _ hbefore)⟩
      · simp only [Replay.taken, check_replay_refused htest, Bool.false_eq_true, if_false, List.nil_append]
        exact ih hreaped hclock.2

/-- Whatever arrives in whatever order, no packet id is taken twice, with a list of sequence numbers and without. -/
theorem no_packet_taken_twice (seq_backtrack : Nat) (time_backtrack : Int) (arrivals : List Arrival)
    (hclock : ∀ a ∈ arrivals, SEQ_EXPIRED < a.now) :
    ((taken (packet_id_init_recv seq_backtrack time_backtrack) arrivals).map Arrival.pin).Nodup :=
  (knows_init.taken hclock).1

/-- A late packet is taken once, its copy is not. -/
theorem no_packet_taken_twice_late :
    let late := [3, 1, 1, 3].map fun id => Arrival.mk 1000 ⟨id, 0⟩
    ((taken (packet_id_init_recv 64 15) late).map Arrival.pin).Nodup ∧
      (taken (packet_id_init_recv 64 15) late).map (fun a => a.pin.id) = [3, 1] := by
  intro late
  refine ⟨no_packet_taken_twice 64 15 late (by decide), by decide⟩

/-! ## Which packets are taken -/

/-- The window of a receiver with a list is what the packets taken so far make of it, while the clock does not go
back. -/
structure Tracks (time_backtrack : Int) (p : PacketIdRec) (w : ReplayWindow Int) (before : List Arrival) (clock : Int) :
    Prop where
  reap_le : p.last_reap ≤ clock
  era_nonneg : 0 ≤ w.era
  seen : ∀ a ∈ before, a.pin.time < w.era ∨ a.pin.time = w.era ∧ (a.pin.id, a.now) ∈ w.seen
  taken : ∀ e ∈ w.seen, ∃ a ∈ before, a.pin.time = w.era ∧ a.pin.id = e.1 ∧ a.now = e.2
  top : w.top = 0 ∧ w.era = 0 ∨ w.top ∈ w.seen.map Prod.fst
  clock : ∀ e ∈ w.seen, e.2 ≤ clock
  expired : ∀ id ≠ 0, w.expired < id ↔
    (time_backtrack ≠ 0 → ∀ e ∈ w.seen, e.2 + time_backtrack < p.last_reap → e.1 < id)

namespace Tracks

variable {before : List Arrival} {clock : Int} {l : CircularList Int}

theorem mono (h : Tracks time_backtrack p w before clock) (hle : clock ≤ now) : Tracks time_backtrack p w before now :=
  { h with
    reap_le := h.reap_le.trans hle
    clock := fun e he => (h.clock e he).trans hle }

theorem reap_test (h : Tracks time_backtrack p w before now) (hage : p.time_backtrack = time_backtrack) :
    Tracks time_backtrack (packet_id_reap_test now p) (Represents.reaped p now w) before now := by
  subst hage
  unfold packet_id_reap_test Represents.reaped
  by_cases hinterval : p.last_reap + SEQ_REAP_INTERVAL ≤ now
  · by_cases htime : p.time_backtrack ≠ 0
    · rw [if_pos hinterval, if_pos ⟨hinterval, htime⟩]
      refine ⟨le_refl _, h.era_nonneg, h.seen, h.taken, h.top, h.clock, fun id hid => ?_⟩
      rw [ReplayWindow.expire_expired_lt_iff, h.expired id hid]
      constructor
      · exact fun hall _ => hall.2
      · refine fun hall => ⟨fun _ e he hold => hall htime e he ?_, hall htime⟩
        exact hold.trans_le h.reap_le
    · rw [if_pos hinterval, if_neg fun hboth => htime hboth.2]
      refine ⟨le_refl _, h.era_nonneg, h.seen, h.taken, h.top, h.clock, fun id hid => ?_⟩
      rw [h.expired id hid]
      exact ⟨fun _ hne => absurd hne htime, fun _ hne => absurd hne htime⟩
  · rwa [if_neg hinterval, if_neg fun hboth => hinterval hboth.1]

theorem add (h : Tracks time_backtrack p w before now) (htime : 0 ≤ time_backtrack) {width : Nat}
    (haccepts : w.Accepts width pin.time pin.id) :
    Tracks time_backtrack (packet_id_add now pin p) (w.record now pin.time pin.id) (⟨now, pin⟩ :: before) now := by
  unfold ReplayWindow.record
  split_ifs with hnew
  · refine ⟨by simpa using h.reap_le, h.era_nonneg.trans hnew.le, ?_, by simp, .inr (by simp), by simp, ?_⟩
    · refine List.forall_mem_cons.mpr ⟨.inr ⟨rfl, by simp⟩, fun a ha => .inl ?_⟩
      rcases h.seen a ha with hlt | ⟨heq, -⟩
      · exact hlt.trans hnew
      · exact heq ▸ hnew
    · intro id hid
      have hreap := h.reap_le
      simp only [List.mem_singleton, forall_eq, packet_id_add_last_reap]
      exact ⟨fun _ _ _ => by omega, fun _ => Nat.pos_of_ne_zero hid⟩
  · obtain ⟨hera, -⟩ := haccepts.resolve_left hnew
    refine ⟨by simpa using h.reap_le, h.era_nonneg, ?_, ?_, ?_, ?_, ?_⟩
    · refine List.forall_mem_cons.mpr ⟨.inr ⟨hera.symm, by simp⟩, fun a ha => ?_⟩
      exact (h.seen a ha).imp_right fun ⟨heq, hmem⟩ => ⟨heq, List.mem_cons_of_mem _ hmem⟩
    · refine List.forall_mem_cons.mpr ⟨⟨_, List.mem_cons_self, hera.symm, rfl, rfl⟩, fun e he => ?_⟩
      obtain ⟨a, ha, hsame⟩ := h.taken e he
      exact ⟨a, List.mem_cons_of_mem _ ha, hsame⟩
    · simp only [List.map_cons, List.mem_cons]
      rcases le_total w.top pin.id with hle | hle
      · exact .inr (.inl (max_eq_right hle))
      · rw [max_eq_left hle]
        exact h.top.imp_right .inr
    · exact List.forall_mem_cons.mpr ⟨le_refl _, h.clock⟩
    · intro id hid
      have hreap := h.reap_le
      rw [h.expired id hid]
      simp only [packet_id_add_last_reap, List.forall_mem_cons]
      exact ⟨fun hall hne => ⟨fun hold => by omega, hall hne⟩, fun hall hne => (hall hne).2⟩

/-- What a window accepts, in terms of the packets taken before. -/
theorem accepts_iff (h : Tracks time_backtrack p w before clock) (hsound : w.Sound) (hid : pin.id ≠ 0) {width : Nat} :
    w.Accepts width pin.time pin.id ↔ 0 ≤ pin.time ∧ ∀ a ∈ before, a.pin.time ≤ pin.time ∧
      (a.pin.time = pin.time → a.pin.id ≠ pin.id ∧ a.pin.id < pin.id + width ∧
        (time_backtrack ≠ 0 → pin.id ≤ a.pin.id → p.last_reap ≤ a.now + time_backtrack)) := by
  have hexpired := h.expired pin.id hid
  unfold ReplayWindow.Accepts
  constructor
  · intro haccepts
    refine ⟨?_, fun a ha => ?_⟩
    · rcases haccepts with hnew | ⟨hera, -⟩
      · exact h.era_nonneg.trans hnew.le
      · exact hera ▸ h.era_nonneg
    · rcases h.seen a ha with hlt | ⟨heq, hmem⟩
      · rcases haccepts with hnew | ⟨hera, -⟩ <;> exact ⟨by omega, fun _ => by omega⟩
      · rcases haccepts with hnew | ⟨hera, hwindow, hlater, hfresh⟩
        · exact ⟨by omega, fun _ => by omega⟩
        · refine ⟨by omega, fun _ => ⟨fun hsame => hfresh (hsame ▸ List.mem_map_of_mem hmem), ?_, fun hne hle => ?_⟩⟩
          · have hle := hsound.seen_le _ hmem
            exact lt_of_le_of_lt hle hwindow
          · by_contra hold
            exact absurd (hexpired.mp hlater hne _ hmem (not_le.mp hold)) (by simpa using hle)
  · rintro ⟨hpos, hall⟩
    have hera : w.era ≤ pin.time := by
      rcases h.top with ⟨-, hzero⟩ | hmem
      · exact hzero ▸ hpos
      · obtain ⟨e, he, -⟩ := List.mem_map.mp hmem
        obtain ⟨a, ha, hsame, -⟩ := h.taken e he
        exact hsame ▸ (hall a ha).1
    rcases hera.lt_or_eq with hnew | heq
    · exact .inl hnew
    · have hseen : ∀ e ∈ w.seen, e.1 ≠ pin.id ∧ e.1 < pin.id + width ∧
          (time_backtrack ≠ 0 → pin.id ≤ e.1 → p.last_reap ≤ e.2 + time_backtrack) := by
        intro e he
        obtain ⟨a, ha, hsame, hnumber, htime⟩ := h.taken e he
        rw [← hnumber, ← htime]
        exact (hall a ha).2 (hsame.trans heq)
      refine .inr ⟨heq, ?_, hexpired.mpr fun hne e he hold => ?_, fun hmem => ?_⟩
      · rcases h.top with ⟨hzero, -⟩ | hmem
        · omega
        · obtain ⟨e, he, htop⟩ := List.mem_map.mp hmem
          exact htop ▸ (hseen e he).2.1
      · by_contra hle
        exact absurd ((hseen e he).2.2 hne (not_lt.mp hle)) (not_le.mpr hold)
      · obtain ⟨e, he, hsame⟩ := List.mem_map.mp hmem
        exact (hseen e he).1 hsame

end Tracks

theorem tracks_init (h : 0 < seq_backtrack) {clock : Int} (hclock : 0 ≤ clock) :
    Tracks time_backtrack (packet_id_init_recv seq_backtrack time_backtrack) { era := 0 } [] clock := by
  rw [packet_id_init_recv, dif_pos h]
  refine ⟨hclock, le_refl _, by simp, by simp, .inl ⟨rfl, rfl⟩, by simp, fun id hid => ?_⟩
  simpa using Nat.pos_of_ne_zero hid

theorem tracks_receive {l : CircularList Int} {before : List Arrival} {clock : Int} (hrep : Represents p l w)
    (htracks : Tracks p.time_backtrack p w before clock) (hpos : 0 < p.seq_backtrack) (htime : 0 ≤ p.time_backtrack)
    (hclock : ∀ a ∈ arrivals, SEQ_EXPIRED < a.now ∧ clock ≤ a.now ∧ a.now ≤ now) (hle : clock ≤ now)
    (hsorted : arrivals.Pairwise fun a b => a.now ≤ b.now) :
    ∃ l' w', Represents (receive p arrivals) l' w' ∧ Tracks p.time_backtrack (receive p arrivals) w'
      ((taken p arrivals).reverse ++ before) now ∧ (receive p arrivals).seq_backtrack = p.seq_backtrack ∧
        (receive p arrivals).time_backtrack = p.time_backtrack := by
  induction arrivals generalizing p l w before clock with
  | nil => exact ⟨l, w, hrep, htracks.mono hle, rfl, rfl⟩
  | cons a arrivals ih =>
      obtain ⟨⟨hruns, hfrom, hto⟩, hrest⟩ := List.forall_mem_cons.mp hclock
      obtain ⟨hlater, hsorted⟩ := List.pairwise_cons.mp hsorted
      obtain ⟨l', hrep'⟩ := hrep.reap_test a.now
      have htracks' := (htracks.mono hfrom).reap_test rfl
      have hrest' : ∀ b ∈ arrivals, SEQ_EXPIRED < b.now ∧ a.now ≤ b.now ∧ b.now ≤ now :=
        fun b hb => ⟨(hrest b hb).1, hlater b hb, (hrest b hb).2.2⟩
      by_cases htest : packet_id_test a.pin (packet_id_reap_test a.now p) = true
      · have haccepts := (hrep'.test_iff.mp htest).2
        have hid := (hrep'.test_iff.mp htest).1
        obtain ⟨l'', hrep''⟩ := hrep'.add (by simpa using hpos) hruns hid haccepts
        have htracks'' := htracks'.add htime haccepts
        obtain ⟨m, w', hm⟩ := ih hrep'' (by simpa using htracks'') (by simpa using hpos) (by simpa using htime) hrest'
          hto hsorted
        simp only [receive_cons, taken, check_replay_taken htest, if_true]
        exact ⟨m, w', by simpa using hm⟩
      · obtain ⟨m, w', hm⟩ := ih hrep' (by simpa using htracks') (by simpa using hpos) (by simpa using htime) hrest'
          hto hsorted
        simp only [receive_cons, taken, check_replay_refused htest, Bool.false_eq_true, if_false]
        exact ⟨m, w', by simpa using hm⟩

/-- While the clock does not go back, a receiver with a list takes exactly the packets that are not older than the time
of the packets taken before, have not been taken, are less than `seq_backtrack` behind the highest one, and do not come
behind one that was taken more than `time_backtrack` before the last reaping, which is less than the interval ago. Where
`time_backtrack` is zero, nothing expires. -/
theorem packet_taken_iff (seq_backtrack : Nat) (time_backtrack : Int) (hpos : 0 < seq_backtrack)
    (htime : 0 ≤ time_backtrack) (arrivals : List Arrival) (a : Arrival)
    (hclock : ∀ b ∈ arrivals ++ [a], SEQ_EXPIRED < b.now)
    (hsorted : (arrivals ++ [a]).Pairwise fun b c => b.now ≤ c.now) :
    let p := receive (packet_id_init_recv seq_backtrack time_backtrack) arrivals
    let last_reap := (packet_id_reap_test a.now p).last_reap
    a.now - SEQ_REAP_INTERVAL < last_reap ∧ last_reap ≤ a.now ∧
      ((check_replay a.now a.pin p).1 = true ↔
        a.pin.id ≠ 0 ∧ 0 ≤ a.pin.time ∧ ∀ b ∈ taken (packet_id_init_recv seq_backtrack time_backtrack) arrivals,
          b.pin.time ≤ a.pin.time ∧ (b.pin.time = a.pin.time → b.pin.id ≠ a.pin.id ∧
            b.pin.id < a.pin.id + seq_backtrack ∧
            (time_backtrack ≠ 0 → a.pin.id ≤ b.pin.id → last_reap ≤ b.now + time_backtrack))) := by
  intro p last_reap
  obtain ⟨hbefore, -, hlast⟩ := List.pairwise_append.mp hsorted
  have hlast' : ∀ b ∈ arrivals, b.now ≤ a.now := fun b hb => hlast b hb a List.mem_cons_self
  have hruns : SEQ_EXPIRED < a.now := hclock a (by simp)
  have hinit : (packet_id_init_recv seq_backtrack time_backtrack).seq_backtrack = seq_backtrack ∧
      (packet_id_init_recv seq_backtrack time_backtrack).time_backtrack = time_backtrack := by
    rw [packet_id_init_recv, dif_pos hpos]
    exact ⟨rfl, rfl⟩
  have hstart : Tracks (packet_id_init_recv seq_backtrack time_backtrack).time_backtrack
      (packet_id_init_recv seq_backtrack time_backtrack) { era := 0 } [] 0 := by
    rw [hinit.2]
    exact tracks_init hpos (le_refl _)
  have hexpired : SEQ_EXPIRED = 1 := rfl
  have hall : ∀ b ∈ arrivals, SEQ_EXPIRED < b.now ∧ 0 ≤ b.now ∧ b.now ≤ a.now := fun b hb => by
    have hb' := hclock b (by simp [hb])
    exact ⟨hb', by omega, hlast' b hb⟩
  obtain ⟨l, w, hrep, htracks, hwidth, hage⟩ := tracks_receive (represents_init hpos) hstart (by rwa [hinit.1])
    (by rwa [hinit.2]) hall (by omega) hbefore
  rw [hinit.2] at htracks hage
  rw [hinit.1] at hwidth
  obtain ⟨l', hrep'⟩ := hrep.reap_test a.now
  have htracks' := htracks.reap_test hage
  refine ⟨?_, htracks'.reap_le, ?_⟩
  · simp only [last_reap, packet_id_reap_test]
    split_ifs with hinterval
    · simp only [packet_id_reap, SEQ_REAP_INTERVAL]
      omega
    · omega
  · have hiff : (check_replay a.now a.pin p).1 = true ↔ packet_id_test a.pin (packet_id_reap_test a.now p) = true := by
      by_cases htest : packet_id_test a.pin (packet_id_reap_test a.now p) = true
      · simp [check_replay_taken htest, htest]
      · simp [check_replay_refused htest, htest]
    rw [hiff, hrep'.test_iff]
    refine and_congr_right fun hid => ?_
    rw [htracks'.accepts_iff hrep'.sound hid]
    simp [hwidth, last_reap, p]

/-- A packet that arrives after one with a higher number, and the same packet too late: the one before it was reaped. -/
theorem packet_taken_iff_late :
    (check_replay 1001 ⟨3, 0⟩ (receive (packet_id_init_recv 64 15) [⟨1000, ⟨5, 0⟩⟩])).1 = true ∧
      (check_replay 1016 ⟨3, 0⟩ (receive (packet_id_init_recv 64 15) [⟨1000, ⟨5, 0⟩⟩])).1 = false := by
  have hlate := packet_taken_iff 64 15 (by decide) (by decide) [⟨1000, ⟨5, 0⟩⟩] ⟨1001, ⟨3, 0⟩⟩ (by decide) (by decide)
  have hreaped := packet_taken_iff 64 15 (by decide) (by decide) [⟨1000, ⟨5, 0⟩⟩] ⟨1016, ⟨3, 0⟩⟩ (by decide) (by decide)
  refine ⟨hlate.2.2.mpr (by decide), Bool.eq_false_iff.mpr fun htaken => ?_⟩
  exact absurd (hreaped.2.2.mp htaken) (by decide)

end AllInSafe.Replay
