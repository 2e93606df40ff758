import AllInSafe.ControlChannel.Lemmas.Events

/-!
# Control channels deliver every packet once and in order
-/

namespace AllInSafe.ControlChannel
open AllInSafe.Library World

variable {o : Options} {w w' : World} {s : Side} {e : Event} {es : List Event} {n : Nat} {p : Payload}

/-- Neither side has written so many packets that their packet ids do not compare as their numbers do. -/
def Bounded (w : World) : Prop := ∀ s, (w.written s).length ≤ PACKETS_MAX

instance : Decidable (Bounded w) :=
  decidable_of_iff ((w.written .client).length ≤ PACKETS_MAX ∧ (w.written .server).length ≤ PACKETS_MAX)
    ⟨fun h s => by cases s; exacts [h.1, h.2], fun h => ⟨h _, h _⟩⟩

/-! ## One event -/

/-- What is written stays so. -/
theorem written_step (hstep : step o w e = some w') (s : Side) : w.written s <+: w'.written s := by
  revert s
  cases e with
  | write t p =>
      simp only [step] at hstep
      split_ifs at hstep
      obtain ⟨i, -, rfl⟩ := Option.map_eq_some_iff.mp hstep
      exact Side.forall_of t (by simp [addWritten, setKeyState]) (by simp [addWritten, setKeyState])
  | send t now =>
      simp only [step] at hstep
      split_ifs at hstep
      split at hstep <;> cases hstep <;> exact fun s => List.prefix_rfl
  | send_ack t =>
      simp only [step] at hstep
      split_ifs at hstep
      cases hstep
      exact fun s => List.prefix_rfl
  | receive t i =>
      obtain ⟨m, -, rfl⟩ := Option.map_eq_some_iff.mp hstep
      split <;> exact fun s => List.prefix_rfl
  | read t =>
      obtain ⟨i, -, hstep⟩ := Option.bind_eq_some_iff.mp hstep
      obtain ⟨entry, -, rfl⟩ := Option.map_eq_some_iff.mp hstep
      exact fun s => List.prefix_rfl
  | schedule_now t now =>
      cases hstep
      exact fun s => List.prefix_rfl

theorem Bounded.of_step (hmax : Bounded w') (hstep : step o w e = some w') : Bounded w :=
  fun s => (written_step hstep s).length_le.trans (hmax s)

/-- An event changes one side, which keeps what it has to. -/
theorem step_keeps (h : Sound o w) (hstep : step o w e = some w') (hmax : Bounded w') :
    ∃ s ks sent written delivered, w' = w.change s ks sent written delivered ∧
      Keeps o w s ks sent written delivered := by
  have hmax' := hmax.of_step hstep
  have hread : ∀ s, (w.delivered s).length ≤ PACKETS_MAX :=
    fun s => (h.incoming s).read.length_le.trans (hmax' s.other)
  cases e with
  | write s p =>
      simp only [step] at hstep
      split_ifs at hstep with hfits
      rw [not_or, not_lt] at hfits
      obtain ⟨i, hi, rfl⟩ := Option.map_eq_some_iff.mp hstep
      have hlt := hmax s
      simp only [addWritten, setKeyState, Function.update_self, List.length_append, List.length_singleton] at hlt
      exact ⟨s, _, _, _, _, addWritten_eq, h.write hlt hfits.1 hfits.2 hi⟩
  | send s now =>
      simp only [step] at hstep
      split_ifs at hstep with hcan
      have hids : ∀ held ∈ (w.key_state s).send_reliable.held, held.packet_id.toNat < 2 ^ 31 :=
        fun held hmem => ((h.outgoing s).id_lt hmem).trans_le (hmax' s)
      obtain ⟨⟨best, rel⟩, hsend⟩ := send_of_can_send hids hcan
      rw [hsend] at hstep
      cases hstep
      exact ⟨s, _, _, _, _, addSent_eq, h.send hsend⟩
  | send_ack s =>
      simp only [step] at hstep
      split_ifs at hstep
      cases hstep
      exact ⟨s, _, _, _, _, addSent_eq, h.send_ack⟩
  | receive s i =>
      obtain ⟨m, hm, rfl⟩ := Option.map_eq_some_iff.mp hstep
      obtain ⟨ks, hks, hreceives⟩ :=
        @receive_control_receives _ m (w.key_state s) (o.session_id s) (h.incoming s).windowed (hread s)
      rw [hks]
      exact ⟨s, _, _, _, _, setKeyState_eq, h.receive (List.mem_of_getElem? hm) hreceives⟩
  | read s =>
      obtain ⟨i, hi, hstep⟩ := Option.bind_eq_some_iff.mp hstep
      obtain ⟨entry, hentry, rfl⟩ := Option.map_eq_some_iff.mp hstep
      obtain ⟨e, he, hkeeps⟩ := h.read (hread s) hi
      cases hentry.symm.trans he
      exact ⟨s, _, _, _, _, addDelivered_eq, hkeeps⟩
  | schedule_now s now =>
      cases hstep
      exact ⟨s, _, _, _, _, setKeyState_eq, h.schedule_now now⟩

theorem sound_step (h : Sound o w) (hstep : step o w e = some w') (hmax : Bounded w') : Sound o w' := by
  obtain ⟨s, ks, sent, written, delivered, rfl, hkeeps⟩ := step_keeps h hstep hmax
  exact h.change hkeeps

/-! ## Runs -/

/-- What holds at the start of a run of bounded length holds at its end. -/
theorem sound_run (h : Sound o w) (hrun : (channel o).runFrom w es = some w') (hmax : Bounded w') : Sound o w' := by
  refine Machine.invariant (M := channel o) (I := fun w => Bounded w → Sound o w) ?_ (fun _ => h) hrun hmax
  exact fun w e w' h hstep hmax => sound_step (h (hmax.of_step hstep)) hstep hmax

/-- Whatever the network loses, repeats and reorders, each side reads the packets that the other one has written, in
their order, none of them twice and none left out, and no assertion fails. -/
theorem delivered_prefix (o : Options) (es : List Event) (w : World)
    (hrun : (channel o).runFrom (channel o).init es = some w) (hmax : Bounded w) :
    (∀ s, w.delivered s <+: w.written s.other) ∧ w.failed = false := by
  have h := sound_run sound_init hrun hmax
  exact ⟨fun s => (h.incoming s).read, h.failed⟩

def lossyOptions : Options where
  session_id s := if s = .client then ⟨[1, 0, 0, 0, 0, 0, 0, 0], rfl⟩ else ⟨[2, 0, 0, 0, 0, 0, 0, 0], rfl⟩
  defined s := by cases s <;> decide
  workaround _ := false
  packet_timeout := 2
  room _ := 1250
  hold _ := false

/-- The first packet is lost and sent again, the second one arrives first and twice. -/
def lossyEvents : List Event :=
  [.write .client ⟨P_CONTROL_V1, [104]⟩, .write .client ⟨P_CONTROL_V1, [105]⟩, .send .client 0, .send .client 0,
    .receive .server 1, .receive .server 1, .send .client 9, .receive .server 2, .read .server, .read .server,
    .send_ack .server, .receive .client 0]

theorem lossyEvents_run : ((channel lossyOptions).runFrom (channel lossyOptions).init lossyEvents).isSome = true := by
  decide +kernel

theorem delivered_prefix_lossy : ∃ w, (channel lossyOptions).runFrom (channel lossyOptions).init lossyEvents = some w ∧
    ((∀ s, w.delivered s <+: w.written s.other) ∧ w.failed = false) ∧
      w.delivered .server = [⟨P_CONTROL_V1, [104]⟩, ⟨P_CONTROL_V1, [105]⟩] :=
  ⟨_, (Option.some_get lossyEvents_run).symm,
    delivered_prefix lossyOptions lossyEvents _ (Option.some_get lossyEvents_run).symm (by decide +kernel),
    by decide +kernel⟩

/-- A packet that a sender does not hold any more has arrived; a sender that holds no packet knows that all that it has
written have. -/
theorem unheld_has_arrived (o : Options) (es : List Event) (w : World)
    (hrun : (channel o).runFrom (channel o).init es = some w) (hmax : Bounded w) (s : Side) (n : Nat) (p : Payload)
    (hp : (w.written s)[n]? = some p)
    (hgone : reliable_empty (w.key_state s).send_reliable = true ∨
      ∀ held ∈ (w.key_state s).send_reliable.held, held.packet_id.toNat ≠ n) :
    (w.delivered s.other)[n]? = some p ∨
      ∃ held ∈ (w.key_state s.other).rec_reliable.held, held.packet_id.toNat = n ∧ held.opcode = p.opcode ∧
        held.buf = p.content := by
  have h := sound_run sound_init hrun hmax
  have hnone : ¬ ∃ held ∈ (w.key_state s).send_reliable.held, held.packet_id.toNat = n := by
    rintro ⟨held, hmem, heq⟩
    rcases hgone with hempty | hgone
    · rw [reliable_empty_iff.mp hempty] at hmem
      cases hmem
    · exact hgone held hmem heq
  have hlt := (List.getElem?_eq_some_iff.mp hp).1
  rcases (h.kept s n hlt).resolve_left hnone with hread | ⟨held, hmem, heq⟩
  · refine .inl ?_
    obtain ⟨rest, hrest⟩ := (h.incoming s.other).read
    rw [Side.other_other] at hrest
    rwa [← hrest, List.getElem?_append_left hread] at hp
  · refine .inr ⟨held, hmem, heq, ?_⟩
    have hheld := (h.incoming s.other).holds held hmem
    rw [Side.other_other, heq, hp] at hheld
    cases hheld
    exact ⟨rfl, rfl⟩

theorem unheld_has_arrived_lossy : ∃ w,
    (channel lossyOptions).runFrom (channel lossyOptions).init lossyEvents = some w ∧
      ((w.delivered .server)[1]? = some ⟨P_CONTROL_V1, [105]⟩ ∨
        ∃ held ∈ (w.key_state .server).rec_reliable.held, held.packet_id.toNat = 1 ∧ held.opcode = P_CONTROL_V1 ∧
          held.buf = [105]) :=
  ⟨_, (Option.some_get lossyEvents_run).symm,
    unheld_has_arrived lossyOptions lossyEvents _ (Option.some_get lossyEvents_run).symm (by decide +kernel) .client 1
      ⟨P_CONTROL_V1, [105]⟩ (by decide +kernel) (.inl (by decide +kernel))⟩

end AllInSafe.ControlChannel
