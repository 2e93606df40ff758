import AllInSafe.Epoch.Theorems

/-!
# What both sides keep over their runs
-/

namespace AllInSafe.Epoch
open AllInSafe.Library AllInSafe.Replay
open AllInSafe.ControlChannel (Side)

variable {P : Pair} {w w' : Side → Endpoint} {s : Side} {e : Event} {event : SessionEvent} {p : Endpoint}

/-- What a side has taken, the other one has sent, also the packet that has moved the receive key. -/
structure Joined (P : Pair) (w : Side → Endpoint) : Prop where
  going : ∀ s, Going (P.setup s) (w s)
  sent : ∀ s, ∀ o ∈ (w s).opened, ∃ t ∈ (w s.other).sealed, t.epoch = o.epoch ∧ t.id = o.id ∧ t.text = o.text
  moved : ∀ s, (w s).co.decrypt.epoch = 1 ∨ ∃ t ∈ (w s.other).sealed, t.epoch = (w s).co.decrypt.epoch

/-- What a packet of the other side opens to. -/
theorem authentic_sealed {t : Sealed} {data final : List UInt8} (hsound : Sound (P.setup s) p.co)
    (ht : SealedWith (P.setup s.other) t) (h : authentic P.C t.opcode t.buf p.co = some (data, final)) :
    data ++ final = t.text := by
  obtain ⟨data', final', htext, hopen⟩ := openPacket_sealed ht
  have heq := authentic_eq t.opcode t.buf hsound
  rw [show (P.setup s).C = P.C from rfl, h, read_sealed ht] at heq
  cases hkey : lookupKey t.buf p.co with
  | none =>
      rw [hkey] at heq
      cases heq
  | some slot =>
      rw [hkey, Option.bind_some] at heq
      have hsame := heq.trans hopen
      cases hsame
      exact htext

theorem Going.epoch_le {S : Setup} {t : Sealed} (h : Going S p) (ht : t ∈ p.sealed) : t.epoch ≤ p.co.encrypt.epoch := by
  have hle := (h.sealed t ht).2
  have hid := h.id_le
  rw [Sealed.position, position] at hle
  rw [PACKET_ID_EPOCH_MAX] at hid
  omega

/-- The receive key is not ahead of the other side's send key. -/
theorem Joined.behind (h : Joined P w) (s : Side) : (w s).co.decrypt.epoch ≤ (w s.other).co.encrypt.epoch := by
  rcases h.moved s with hone | ⟨t, ht, hepoch⟩
  · rw [hone]
    exact (h.going s.other).sound.send_pos
  · exact hepoch ▸ (h.going s.other).epoch_le ht

/-- One side goes on, and opens only packets of the other one. -/
theorem Joined.update (h : Joined P w) (hgoing : Going (P.setup s) p) (hsealed : ∀ t ∈ (w s).sealed, t ∈ p.sealed)
    (hopened : ∀ o ∈ p.opened, o ∈ (w s).opened ∨
      ∃ t ∈ (w s.other).sealed, t.epoch = o.epoch ∧ t.id = o.id ∧ t.text = o.text)
    (hepoch : p.co.decrypt.epoch = (w s).co.decrypt.epoch ∨ ∃ t ∈ (w s.other).sealed, t.epoch = p.co.decrypt.epoch) :
    Joined P (Function.update w s p) := by
  have hother : Function.update w s p s.other = w s.other := Function.update_of_ne Side.other_ne _ _
  refine ⟨Side.forall_of s ?_ ?_, Side.forall_of s ?_ ?_, Side.forall_of s ?_ ?_⟩
  · rwa [Function.update_self]
  · rw [hother]
    exact h.going _
  · rw [Function.update_self, hother]
    exact fun o ho => (hopened o ho).elim (h.sent s o) id
  · rw [hother, Side.other_other, Function.update_self]
    intro o ho
    obtain ⟨t, ht, hsame⟩ := h.sent s.other o ho
    rw [Side.other_other] at ht
    exact ⟨t, hsealed t ht, hsame⟩
  · rw [Function.update_self, hother]
    refine hepoch.elim (fun heq => ?_) .inr
    rw [heq]
    exact h.moved s
  · rw [hother, Side.other_other, Function.update_self]
    refine (h.moved s.other).imp_right fun hmoved => ?_
    obtain ⟨t, ht, hsame⟩ := hmoved
    rw [Side.other_other] at ht
    exact ⟨t, hsealed t ht, hsame⟩

theorem Joined.step (h : Joined P w) (hstep : P.step w event = some w') : Joined P w' := by
  cases event with
  | send s now work buf =>
      obtain ⟨p, hp, rfl⟩ := Option.map_eq_some_iff.mp hstep
      have hsent := (h.going s).send hp
      refine h.update hsent.going (fun t ht => ?_) (fun o ho => .inl (hsent.opened ▸ ho))
        (.inl (by rw [hsent.receiver.decrypt]))
      rcases hsent.sealed with heq | ⟨t', -, -, -, -, heq⟩
      · exact heq ▸ ht
      · exact heq ▸ List.mem_cons_of_mem _ ht
  | deliver s now i =>
      obtain ⟨t, ht, hside⟩ := Option.bind_eq_some_iff.mp hstep
      obtain ⟨p, hp, rfl⟩ := Option.map_eq_some_iff.mp hside
      have hmem : t ∈ (w s.other).sealed := List.mem_reverse.mp (List.mem_of_getElem? ht)
      have hwith := ((h.going s.other).sealed t hmem).1
      have hreceived := (h.going s).receive hp
      have hepoch := hreceived.epoch
      have hopened := hreceived.opened
      rw [read_sealed hwith] at hepoch hopened
      refine h.update hreceived.going (fun t ht => hreceived.sealed ▸ ht) (fun o ho => ?_) ?_
      · rcases hopened with heq | ⟨data, final, hauthentic, heq⟩
        · exact .inl (heq ▸ ho)
        · rw [heq, authentic_sealed (h.going s).sound hwith hauthentic] at ho
          rcases List.mem_cons.mp ho with rfl | ho
          · exact .inr ⟨t, hmem, rfl, rfl, rfl⟩
          · exact .inl ho
      · exact hepoch.imp_right fun hmoved => ⟨t, hmem, hmoved.2.symm⟩
  | inject s now opcode buf =>
      rw [Pair.step] at hstep
      split_ifs at hstep with hauthentic
      obtain ⟨p, hp, rfl⟩ := Option.map_eq_some_iff.mp hstep
      have hreceived := (h.going s).receive hp
      refine h.update hreceived.going (fun t ht => hreceived.sealed ▸ ht) (fun o ho => .inl ?_) (.inl ?_)
      · rcases hreceived.opened with heq | ⟨data, final, hsome, -⟩
        · exact heq ▸ ho
        · exact absurd (Option.isSome_of_eq_some hsome) hauthentic
      · exact hreceived.epoch.resolve_right fun hmoved => hauthentic hmoved.1

/-- A step of the session is a step of one side, with the same clock. -/
theorem side_step (hstep : P.step w event = some w') : ∃ s e p, e.now = event.now ∧ (w s).step P.C e = some p ∧
    w' = Function.update w s p := by
  cases event with
  | send s now work buf =>
      obtain ⟨p, hp, rfl⟩ := Option.map_eq_some_iff.mp hstep
      exact ⟨s, _, p, rfl, hp, rfl⟩
  | deliver s now i =>
      obtain ⟨t, -, hside⟩ := Option.bind_eq_some_iff.mp hstep
      obtain ⟨p, hp, rfl⟩ := Option.map_eq_some_iff.mp hside
      exact ⟨s, _, p, rfl, hp, rfl⟩
  | inject s now opcode buf =>
      rw [Pair.step] at hstep
      split_ifs at hstep
      obtain ⟨p, hp, rfl⟩ := Option.map_eq_some_iff.mp hstep
      exact ⟨s, _, p, rfl, hp, rfl⟩

/-- What one side keeps in its own steps, both sides keep. -/
theorem keep_step {K : Endpoint → Prop} {co : Side → CryptoOptions} {es : List SessionEvent} (hjoined : Joined P w)
    (hkeep : ∀ s p p' e, Going (P.setup s) p → (∃ event ∈ es, e.now = event.now) → p.step P.C e = some p' → K p → K p')
    (hstart : ∀ s, K (w s)) (hrun : (session P co).runFrom w es = some w') : ∀ s, K (w' s) := by
  induction es generalizing w with
  | nil =>
      cases hrun
      exact hstart
  | cons event es ih =>
      obtain ⟨mid, hmid, hrest⟩ := Machine.runFrom_cons.mp hrun
      refine ih (hjoined.step hmid) (fun s p p' e hgoing hnow => hkeep s p p' e hgoing ?_) ?_ hrest
      · obtain ⟨event', hmem, hsame⟩ := hnow
        exact ⟨event', List.mem_cons_of_mem _ hmem, hsame⟩
      · obtain ⟨s, e, p, hnow, hp, rfl⟩ := side_step hmid
        refine Side.forall_of s ?_ ?_
        · rw [Function.update_self]
          exact hkeep s (w s) p e (hjoined.going s) ⟨event, List.mem_cons_self, hnow⟩ hp (hstart s)
        · rw [Function.update_of_ne Side.other_ne]
          exact hstart s.other

theorem joined_init (P : Pair) : ∃ co : Side → CryptoOptions, (∀ s, (P.setup s).init = some (co s)) ∧
    Joined P (session P co).init ∧ (∀ s, Recorded (co s) []) ∧
      ∀ s, (co s).pid_rec = packet_id_init_recv (P.seq_backtrack s) (P.time_backtrack s) := by
  choose co hco hgoing hrecorded hone hrec using fun s => going_init (P.setup s)
  exact ⟨co, hco, ⟨hgoing, fun _ _ ho => absurd ho List.not_mem_nil, fun s => .inl (hone s)⟩, hrecorded, hrec⟩

theorem Joined.run {co : Side → CryptoOptions} {es : List SessionEvent} (h : Joined P w)
    (hrun : (session P co).runFrom w es = some w') : Joined P w' :=
  Machine.invariant (I := Joined P) (fun _ _ _ hjoined hstep => hjoined.step hstep) h hrun

/-- Whatever the network loses, repeats, reorders or makes up, each side takes packets that the other one has sent, with
the text that has been sealed, and none of them twice; and its receive key is not ahead of the other's send key. -/
theorem taken_once_as_sent (P : Pair) (es : List SessionEvent) (hclock : ∀ e ∈ es, SEQ_EXPIRED < e.now) :
    ∃ co : Side → CryptoOptions, (∀ s, (P.setup s).init = some (co s)) ∧
      ∀ w, (session P co).runFrom (session P co).init es = some w → ∀ s,
        List.Subperm ((w s).opened.map fun o => (o.epoch, o.id, o.text))
          ((w s.other).sealed.map fun t => (t.epoch, t.id, t.text)) ∧
        (w s).co.decrypt.epoch ≤ (w s.other).co.encrypt.epoch := by
  obtain ⟨co, hco, hjoined, hrecorded, -⟩ := joined_init P
  refine ⟨co, hco, fun w hrun s => ⟨?_, (hjoined.run hrun).behind s⟩⟩
  have hrecorded' := keep_step (K := fun p => Recorded p.co p.opened) hjoined (fun s p p' e hgoing hnow hp hr => ?_)
    hrecorded hrun
  · refine List.Nodup.subperm ?_ fun x hx => ?_
    · refine List.Nodup.of_map (fun x => (x.1, x.2.1)) ?_
      rw [List.map_map]
      exact (hrecorded' s).nodup
    · obtain ⟨o, ho, rfl⟩ := List.mem_map.mp hx
      obtain ⟨t, ht, hepoch, hid, htext⟩ := (hjoined.run hrun).sent s o ho
      exact List.mem_map.mpr ⟨t, ht, by rw [hepoch, hid, htext]⟩
  · obtain ⟨event, hmem, hsame⟩ := hnow
    have hclock' := hclock event hmem
    rw [← hsame] at hclock'
    cases e with
    | send now work buf =>
        have hsent := hgoing.send hp
        rw [hsent.opened]
        exact hr.sent hsent.receiver
    | receive now opcode buf => exact (hgoing.receive hp).recorded hclock' hr

def plainPair : Pair where
  C := plainCrypto
  key_type := plainSetup.key_type
  aead_usage_limit := 3
  e1 s := ⟨List.replicate 32 (if s = .client then 1 else 2), 1⟩
  future_key_count _ := 2
  seq_backtrack _ := 64
  time_backtrack _ := 15
  first _ := rfl
  count_pos _ := plainSetup.count_pos
  count_le _ := plainSetup.count_le

/-- The third packet, whose epoch is the second one, is the first to arrive; the others follow, one of them twice. -/
def reordered : List SessionEvent :=
  [.send .client 1000 [9] [1, 2, 3], .send .client 1000 [9] [4, 5], .send .client 1000 [9] [6], .deliver .server 1001 2,
    .deliver .server 1001 0, .deliver .server 1001 1, .deliver .server 1002 1, .inject .server 1002 [9] [0, 1, 2]]

theorem taken_once_as_sent_reordered : ∃ co : Side → CryptoOptions, (∀ s, (plainPair.setup s).init = some (co s)) ∧
    ∀ w, (session plainPair co).runFrom (session plainPair co).init reordered = some w → ∀ s,
      List.Subperm ((w s).opened.map fun o => (o.epoch, o.id, o.text))
        ((w s.other).sealed.map fun t => (t.epoch, t.id, t.text)) ∧
      (w s).co.decrypt.epoch ≤ (w s.other).co.encrypt.epoch :=
  taken_once_as_sent plainPair reordered (by decide)

/-- What the server has taken after a run, and whether it has failed. -/
def serverAfter (es : List SessionEvent) : Option (List (Nat × Nat × List UInt8) × Bool) :=
  (plainPair.setup .client).init.bind fun client => (plainPair.setup .server).init.bind fun server =>
    let M := session plainPair fun s => if s = .client then client else server
    (M.runFrom M.init es).map fun w => ((w .server).opened.map fun o => (o.epoch, o.id, o.text), (w .server).failed)

example : serverAfter reordered = some ([(1, 2, [4, 5]), (1, 1, [1, 2, 3]), (2, 1, [6])], false) := by decide +kernel

/-- With two keys for the next epochs, a packet of the third epoch that arrives first makes an assertion fail. -/
example : serverAfter (List.replicate 5 (.send .client 1000 [9] [1, 2, 3]) ++ [.deliver .server 1001 4]) =
    some ([], true) := by
  decide +kernel

/-! ## The newest packet -/

theorem lookupKey_isSome_iff {S : Setup} {co : CryptoOptions} {buf : List UInt8} (h : Sound S co)
    (hlong : 25 ≤ buf.length)
    (hzero : (packet_id_read_epoch buf).1 ≠ 0) (hfine : ∀ slot, cipher_decrypt_verify_fail_exceeded (co.key slot) = false) :
    (lookupKey buf co).isSome ↔ Usable S co (packet_id_read_epoch buf).1 := by
  rw [← h.lookup_isSome_iff, lookupKey, if_neg (by simpa [OPENVPN_AEAD_TAG_LENGTH] using hlong)]
  simp only [hzero, if_false]
  cases epoch_lookup_decrypt_key (packet_id_read_epoch buf).1 co with
  | none => rfl
  | some slot => simp [Option.filter, hfine]

/-- The packet that has been sent last is opened where its key can be used. -/
theorem authentic_sealed_iff {t : Sealed} (hsound : Sound (P.setup s) p.co) (ht : SealedWith (P.setup s.other) t)
    (hlong : 25 ≤ t.buf.length) (hfine : ∀ slot, cipher_decrypt_verify_fail_exceeded (p.co.key slot) = false) :
    (authentic P.C t.opcode t.buf p.co).isSome ↔ Usable (P.setup s) p.co t.epoch := by
  have hread := read_sealed ht
  have hkey := lookupKey_isSome_iff hsound hlong (by rw [hread]; exact ht.epoch_pos.ne') hfine
  obtain ⟨data, final, -, hopen⟩ := openPacket_sealed ht
  have heq := authentic_eq t.opcode t.buf hsound
  rw [hread] at hkey heq
  rw [← hkey, show P.C = (P.setup s).C from rfl, heq]
  cases lookupKey t.buf p.co with
  | none => rfl
  | some slot =>
      rw [Option.bind_some]
      exact iff_of_true (Option.isSome_of_eq_some hopen) rfl

/-- No packet has a later position than the newest one. -/
theorem Joined.newest_epoch {t : Sealed} {older : List Sealed} (h : Joined P w)
    (hsealed : (w s.other).sealed = t :: older) :
    (w s).co.decrypt.epoch ≤ t.epoch ∧ ∀ t' ∈ older, t'.position < t.position := by
  have hsorted := (h.going s.other).sorted
  have hwith := (h.going s.other).sealed t (by rw [hsealed]; exact List.mem_cons_self)
  rw [hsealed] at hsorted
  have hlast := (List.pairwise_cons.mp hsorted).1
  refine ⟨?_, hlast⟩
  rcases h.moved s with hone | ⟨t', ht', hepoch⟩
  · rw [hone]
    exact hwith.1.epoch_pos
  · rw [← hepoch]
    rw [hsealed] at ht'
    rcases List.mem_cons.mp ht' with rfl | ht'
    · exact le_refl _
    · have hlt := hlast t' ht'
      have hid := hwith.1.id_le
      rw [Sealed.position, Sealed.position] at hlt
      rw [PACKET_ID_EPOCH_MAX] at hid
      omega

/-- In its epoch the newest packet has a higher id than those that have been taken. -/
theorem Joined.newest_id {t : Sealed} {older : List Sealed} (h : Joined P w) (htopped : Topped (w s).co (w s).opened)
    (hsealed : (w s.other).sealed = t :: older) (hnew : ∀ o ∈ (w s).opened, (o.epoch, o.id) ≠ (t.epoch, t.id))
    (hepoch : t.epoch = (w s).co.decrypt.epoch) : (w s).co.pid_rec.id < t.id := by
  have hwith := ((h.going s.other).sealed t (by rw [hsealed]; exact List.mem_cons_self)).1
  rcases htopped.top with hzero | ⟨o, ho, hcurrent, hid⟩
  · rw [hzero]
    exact hwith.id_pos
  · obtain ⟨t', ht', hepoch', hid', -⟩ := h.sent s o ho
    rw [hsealed] at ht'
    rcases List.mem_cons.mp ht' with rfl | ht'
    · exact absurd (Prod.ext hepoch'.symm hid'.symm) (hnew o ho)
    · have hlt := (h.newest_epoch hsealed).2 t' ht'
      rw [Sealed.position, Sealed.position] at hlt
      omega

theorem Joined.newest {t : Sealed} {older : List Sealed} {now : Int} (h : Joined P w)
    (htopped : Topped (w s).co (w s).opened) (hsealed : (w s.other).sealed = t :: older) (hlong : 25 ≤ t.buf.length)
    (hnew : ∀ o ∈ (w s).opened, (o.epoch, o.id) ≠ (t.epoch, t.id))
    (hfine : ∀ slot, cipher_decrypt_verify_fail_exceeded ((w s).co.key slot) = false)
    (hp : (w s).step P.C (.receive now t.opcode t.buf) = some p) :
    ⟨t.epoch, t.id, t.text⟩ ∈ p.opened ↔ t.epoch = (w s).co.decrypt.epoch ∨
      (w s).co.decrypt.epoch < t.epoch ∧ t.epoch < (w s).co.decrypt.epoch + P.future_key_count s ∧
        t.epoch + P.future_key_count s + 1 ≤ UINT16_MAX := by
  have hwith := ((h.going s.other).sealed t (by rw [hsealed]; exact List.mem_cons_self)).1
  have hcount := P.count_pos s
  have hsound := (h.going s).sound
  have hreceived := (h.going s).receive hp
  have hauthentic := authentic_sealed_iff hsound hwith hlong hfine
  have hread := read_sealed hwith
  have hover : Overtakes (P.setup s) (w s) (.receive now t.opcode t.buf) ↔ Usable (P.setup s) (w s).co t.epoch ∧
      t.epoch = (w s).co.decrypt.epoch + P.future_key_count s := by
    rw [← hauthentic, Overtakes, hread]
    rfl
  have hmissing : ⟨t.epoch, t.id, t.text⟩ ∉ (w s).opened := fun hmem => hnew _ hmem rfl
  constructor
  · intro hmem
    have hnot : ¬ Overtakes (P.setup s) (w s) (.receive now t.opcode t.buf) :=
      fun hover => hmissing (hreceived.stays hover ▸ hmem)
    rcases hreceived.opened with heq | ⟨data, final, hsome, -⟩
    · exact absurd (heq ▸ hmem) hmissing
    · have husable := hauthentic.mp (Option.isSome_of_eq_some hsome)
      rcases husable with heq | ⟨hzero, hretiring⟩ | ⟨hlt, hle, hlimit⟩
      · exact .inl heq
      · have hbefore := (hsound.retiring (hretiring ▸ hzero)).2
        have hle := (h.newest_epoch hsealed).1
        omega
      · refine .inr ⟨hlt, lt_of_le_of_ne hle fun heq => hnot ?_, hlimit⟩
        exact hover.mpr ⟨.inr (.inr ⟨hlt, hle, hlimit⟩), heq⟩
  · intro hnext
    have husable : Usable (P.setup s) (w s).co t.epoch :=
      hnext.imp_right fun hlater => .inr ⟨hlater.1, hlater.2.1.le, hlater.2.2⟩
    obtain ⟨opened, hsome⟩ := Option.isSome_iff_exists.mp (hauthentic.mpr husable)
    have hnot : ¬ Overtakes (P.setup s) (w s) (.receive now t.opcode t.buf) := by
      rw [hover]
      rintro ⟨-, heq⟩
      omega
    have hopened := hreceived.newer opened.1 opened.2 hsome htopped hnot
    rw [hread, authentic_sealed hsound hwith hsome] at hopened
    rw [hopened ?_]
    · exact List.mem_cons_self
    · rcases hnext with heq | hlater
      · exact .inl ⟨heq, h.newest_id htopped hsealed hnew heq⟩
      · exact .inr ⟨hlater.1, hwith.id_pos⟩

/-- The newest packet of a side, when it has not been taken yet, is taken in the epoch that is in use and in those of the
next keys but the last one, as long as the epochs are not used up. -/
theorem newest_packet_taken_iff (P : Pair) (hwindow : ∀ s, 0 < P.seq_backtrack s) :
    ∃ co : Side → CryptoOptions, (∀ s, (P.setup s).init = some (co s)) ∧
      ∀ es w, (session P co).runFrom (session P co).init es = some w →
        ∀ s now t older w', (w s.other).sealed = t :: older → 25 ≤ t.buf.length →
          (∀ o ∈ (w s).opened, (o.epoch, o.id) ≠ (t.epoch, t.id)) →
          (∀ slot, cipher_decrypt_verify_fail_exceeded ((w s).co.key slot) = false) →
          (session P co).step w (.deliver s now older.length) = some w' →
          (⟨t.epoch, t.id, t.text⟩ ∈ (w' s).opened ↔ t.epoch = (w s).co.decrypt.epoch ∨
            (w s).co.decrypt.epoch < t.epoch ∧ t.epoch < (w s).co.decrypt.epoch + P.future_key_count s ∧
              t.epoch + P.future_key_count s + 1 ≤ UINT16_MAX) := by
  obtain ⟨co, hco, hstart, -, hrec⟩ := joined_init P
  refine ⟨co, hco, fun es w hrun s now t older w' hsealed hlong hnew hfine hstep => ?_⟩
  have hjoined := hstart.run hrun
  have htopped := keep_step (K := fun p => Topped p.co p.opened) hstart (fun s p p' e hgoing _ hp ht => ?_)
    (fun s => Topped.of_init (hwindow s) (hrec s)) hrun
  · obtain ⟨t', ht', hside⟩ := Option.bind_eq_some_iff.mp hstep
    obtain ⟨p, hp, rfl⟩ := Option.map_eq_some_iff.mp hside
    rw [hsealed, List.reverse_cons, List.getElem?_append_right (by simp), List.length_reverse, Nat.sub_self] at ht'
    cases ht'
    rw [Function.update_self]
    exact hjoined.newest (htopped s) hsealed hlong hnew hfine hp
  · cases e with
    | send now work buf =>
        have hsent := hgoing.send hp
        rw [hsent.opened]
        exact ht.sent hsent.receiver
    | receive now opcode buf => exact (hgoing.receive hp).topped ht

/-- The three packets of `reordered` have been sent, and the last of them arrives first. -/
def thirdArrives (co : Side → CryptoOptions) : Option ((Side → Endpoint) × (Side → Endpoint)) :=
  ((session plainPair co).runFrom (session plainPair co).init (reordered.take 3)).bind fun w =>
    ((session plainPair co).step w (.deliver .server 1001 2)).map fun w' => (w, w')

/-- The server has taken nothing, all of its keys can verify, and the third packet is of its next epoch. -/
def beforeThird (w : Side → Endpoint) : Bool :=
  match (w .client).sealed with
  | t :: older =>
      older.length = 2 && 25 ≤ t.buf.length && (w .server).opened.isEmpty &&
        !cipher_decrypt_verify_fail_exceeded (w .server).co.decrypt &&
        !cipher_decrypt_verify_fail_exceeded (w .server).co.epoch_retiring_data_receive_key &&
        (w .server).co.epoch_data_keys_future.all (!cipher_decrypt_verify_fail_exceeded ·) &&
        (w .server).co.decrypt.epoch = 1 && t.epoch = 2
  | [] => false

theorem thirdArrives_beforeThird {co : Side → CryptoOptions} (hco : ∀ s, (plainPair.setup s).init = some (co s)) :
    ∃ w w', thirdArrives co = some (w, w') ∧ beforeThird w = true := by
  have hclosed : ((plainPair.setup .client).init.bind fun client => (plainPair.setup .server).init.bind fun server =>
      (thirdArrives fun s => if s = .client then client else server).map fun r => beforeThird r.1) = some true := by
    decide +kernel
  have hsides : (fun s => if s = .client then co .client else co .server) = co := by
    funext s
    cases s <;> rfl
  rw [hco .client, hco .server, Option.bind_some, Option.bind_some, hsides] at hclosed
  obtain ⟨⟨w, w'⟩, hw, hbefore⟩ := Option.map_eq_some_iff.mp hclosed
  exact ⟨w, w', hw, hbefore⟩

/-- The third packet, which is of the second epoch, is taken although the other two have not arrived. -/
theorem newest_packet_taken_iff_plain : ∃ co : Side → CryptoOptions, (∀ s, (plainPair.setup s).init = some (co s)) ∧
    ∃ w w' t older, (session plainPair co).runFrom (session plainPair co).init (reordered.take 3) = some w ∧
      (w .client).sealed = t :: older ∧ (session plainPair co).step w (.deliver .server 1001 older.length) = some w' ∧
        ⟨t.epoch, t.id, t.text⟩ ∈ (w' .server).opened := by
  obtain ⟨co, hco, htaken⟩ := newest_packet_taken_iff plainPair fun _ => Nat.succ_pos 63
  refine ⟨co, hco, ?_⟩
  obtain ⟨w, w', hboth, hbefore⟩ := thirdArrives_beforeThird hco
  obtain ⟨v, hrun, hmap⟩ := Option.bind_eq_some_iff.mp hboth
  obtain ⟨v', hstep, hpair⟩ := Option.map_eq_some_iff.mp hmap
  cases hpair
  unfold beforeThird at hbefore
  split at hbefore
  · next t older hsealed =>
      simp only [Bool.and_eq_true, decide_eq_true_eq, Bool.not_eq_true', List.isEmpty_iff, List.all_eq_true] at hbefore
      obtain ⟨⟨⟨⟨⟨⟨⟨holder, hlong⟩, hnone⟩, hdecrypt⟩, hretiring⟩, hfuture⟩, hcurrent⟩, hepoch⟩ := hbefore
      rw [← holder] at hstep
      have hfine : ∀ slot, cipher_decrypt_verify_fail_exceeded ((w .server).co.key slot) = false := by
        intro slot
        cases slot with
        | decrypt => exact hdecrypt
        | retiring => exact hretiring
        | future index =>
            simp only [CryptoOptions.key, List.getD_eq_getElem?_getD]
            cases hkey : (w .server).co.epoch_data_keys_future[index]? with
            | none => rfl
            | some key => exact hfuture key (List.mem_of_getElem? hkey)
      refine ⟨w, w', t, older, hrun, hsealed, hstep, ?_⟩
      refine (htaken _ w hrun .server 1001 t older w' hsealed hlong (by simp [hnone]) hfine hstep).mpr (.inr ?_)
      rw [hcurrent, hepoch]
      decide
  · cases hbefore

end AllInSafe.Epoch
