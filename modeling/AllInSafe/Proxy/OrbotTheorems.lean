import AllInSafe.Proxy.OrbotHelper

/-!
# The Orbot wait
-/

namespace AllInSafe.Proxy
open AllInSafe.Library

/-- The iterator of a loop has not been overtaken by a modification, and the loop that removes callbacks has one. -/
structure ReceiverLoop.Fits (statusCallbacks : List Nat) (modCount : Nat) (l : ReceiverLoop) : Prop where
  waiting : l.rest ⊆ statusCallbacks
  current : l.rest ≠ [] → modCount = l.expectedModCount
  ready : l.intent.status = some STATUS_ON → statusCallbacks.length ≤ 1
  single : l.call = .onOrbotReady → l.rest.length ≤ 1

namespace Orbot

variable {s s' : Orbot} {i j cb : Nat} {host : Str} {port : Int}

/-- Each command has answered a query, the receiver is registered exactly while there are callbacks, and neither an
unregistered receiver was unregistered nor a modified set iterated on. -/
structure Exact (s : Orbot) : Prop where
  answered : ∀ c ∈ s.commands, c.answersQuery = true
  registered : s.registered = true ↔ s.statusCallbacks ≠ []
  unregistered : s.exception ≠ some .illegalArgument
  iterated : s.exception ≠ some .concurrentModification

/-- A session asks, and OpenVPN gives a query up, only while no timeout of the session is posted; a timeout finds that
its thread has added the callback; a callback is added while the main thread is in no loop; and Orbot becomes ready
while at most one callback waits. -/
def InTurn (s : Orbot) : OrbotEvent → Prop
  | .query i => (s.session i).timeouts = 0
  | .restarts i => (s.session i).connected = true → (s.session i).timeouts = 0
  | .timeout i => (s.session i).adding = false
  | .addStatusCallback _ => s.loop = none
  | .broadcast intent _ => intent.status = some STATUS_ON → s.statusCallbacks.length ≤ 1
  | _ => True

instance (s : Orbot) (e : OrbotEvent) : Decidable (s.InTurn e) := by
  cases e <;> simp only [InTurn] <;> infer_instance

/-- The receiver hears that Orbot is ready. -/
def HearsReady (s : Orbot) : OrbotEvent → Prop
  | .broadcast intent _ => s.registered = true ∧ intent.status = some STATUS_ON
  | _ => False

instance (s : Orbot) (e : OrbotEvent) : Decidable (s.HearsReady e) := by
  cases e <;> simp only [HearsReady] <;> infer_instance

/-! ## The invariant -/

/-- A callback is in the set while its timeout is posted, and OpenVPN waits for the answer that they stand for. -/
structure Waits (s : Orbot) : Prop extends Exact s where
  waiting : ∀ i, i ∈ s.statusCallbacks ↔ 0 < (s.session i).timeouts ∧ (s.session i).adding = false
  nodup : s.statusCallbacks.Nodup
  posted : ∀ i, (s.session i).timeouts ≤ 1
  adding : ∀ i, (s.session i).adding = true → 0 < (s.session i).timeouts
  asked : ∀ i, 0 < (s.session i).timeouts → (s.session i).connected = true → (s.session i).queryOpen = true
  loop : ∀ l, s.loop = some l → l.Fits s.statusCallbacks s.modCount

theorem waits_init : orbot.init.Waits where
  answered := by simp [orbot]
  registered := by simp [orbot]
  unregistered := by simp [orbot]
  iterated := by simp [orbot]
  waiting := by simp [orbot]
  nodup := by simp [orbot]
  posted := by simp [orbot]
  adding := by simp [orbot]
  asked := by simp [orbot]
  loop := by simp [orbot]

/-! ## The operations -/

section Fields

variable {f : OrbotSession → OrbotSession}

@[simp] theorem setSession_session : (s.setSession i f).session i = f (s.session i) := by simp [setSession]

@[simp] theorem setSession_session_of_ne (h : j ≠ i) : (s.setSession i f).session j = s.session j := by
  simp [setSession, h]

@[simp] theorem setSession_statusCallbacks : (s.setSession i f).statusCallbacks = s.statusCallbacks := rfl

@[simp] theorem setSession_loop : (s.setSession i f).loop = s.loop := rfl

@[simp] theorem setSession_modCount : (s.setSession i f).modCount = s.modCount := rfl

@[simp] theorem setSession_modifiedInLoop : (s.setSession i f).modifiedInLoop = s.modifiedInLoop := rfl

theorem Exact.setSession (h : s.Exact) : (s.setSession i f).Exact :=
  ⟨h.answered, h.registered, h.unregistered, h.iterated⟩

end Fields

/-- What concerns one session alone. -/
theorem Waits.setSession {f : OrbotSession → OrbotSession} (h : s.Waits)
    (hwaiting : i ∈ s.statusCallbacks ↔ 0 < (f (s.session i)).timeouts ∧ (f (s.session i)).adding = false)
    (hposted : (f (s.session i)).timeouts ≤ 1)
    (hadding : (f (s.session i)).adding = true → 0 < (f (s.session i)).timeouts)
    (hasked : 0 < (f (s.session i)).timeouts → (f (s.session i)).connected = true →
      (f (s.session i)).queryOpen = true) : (s.setSession i f).Waits := by
  refine ⟨h.toExact.setSession, fun j => ?_, h.nodup, fun j => ?_, fun j => ?_, fun j => ?_, h.loop⟩
  all_goals by_cases hj : j = i
  all_goals first | subst hj; simpa using ‹_› | simp only [setSession_session_of_ne hj]
  · exact h.waiting j
  · exact h.posted j
  · exact h.adding j
  · exact h.asked j

/-! ### Proxy commands -/

/-- The command is right where the session is gone or its query is open. -/
theorem Exact.sendProxyCMD (h : s.Exact) (hasked : (s.session i).connected = true → (s.session i).queryOpen = true) :
    (s.sendProxyCMD i host port).Exact := by
  unfold Orbot.sendProxyCMD
  split_ifs with hconnected
  · exact ⟨List.forall_mem_cons.mpr ⟨hasked hconnected, h.answered⟩, h.registered, h.unregistered, h.iterated⟩
  · exact h

@[simp] theorem sendProxyCMD_statusCallbacks : (s.sendProxyCMD i host port).statusCallbacks = s.statusCallbacks := by
  unfold sendProxyCMD
  split_ifs <;> rfl

@[simp] theorem sendProxyCMD_loop : (s.sendProxyCMD i host port).loop = s.loop := by
  unfold sendProxyCMD
  split_ifs <;> rfl

@[simp] theorem sendProxyCMD_modCount : (s.sendProxyCMD i host port).modCount = s.modCount := by
  unfold sendProxyCMD
  split_ifs <;> rfl

@[simp] theorem sendProxyCMD_modifiedInLoop : (s.sendProxyCMD i host port).modifiedInLoop = s.modifiedInLoop := by
  unfold sendProxyCMD
  split_ifs <;> rfl

/-- A command closes the query of its session and leaves the timeouts. -/
theorem sendProxyCMD_session : (s.sendProxyCMD i host port).session j =
    { s.session j with queryOpen := (s.session j).queryOpen && !(decide (j = i) && (s.session i).connected) } := by
  unfold sendProxyCMD
  by_cases hj : j = i
  · subst hj
    cases hsession : s.session j
    split_ifs with hconnected <;> simp_all
  · split_ifs <;> simp [hj]

/-! ### The set -/

/-- A callback that waits leaves the set, and the receiver with the last one. -/
theorem Exact.removeStatusCallback (h : s.Exact) (hcb : cb ∈ s.statusCallbacks) :
    (s.removeStatusCallback cb).Exact := by
  have hon : s.registered = true := h.registered.mpr (List.ne_nil_of_mem hcb)
  simp only [Orbot.removeStatusCallback, remove, if_pos hcb, setCallbacks, unregisterReceiver, hon, if_true]
  split_ifs with hempty
  · have hnil := List.length_eq_zero_iff.mp hempty
    exact ⟨h.answered, ⟨nofun, fun hne => absurd hnil hne⟩, h.unregistered, h.iterated⟩
  · have hne := mt List.length_eq_zero_iff.mpr hempty
    exact ⟨h.answered, ⟨fun _ => hne, fun _ => rfl⟩, h.unregistered, h.iterated⟩

theorem removeStatusCallback_statusCallbacks :
    (s.removeStatusCallback cb).statusCallbacks = s.statusCallbacks.erase cb := by
  have hremove : (s.remove cb).statusCallbacks = s.statusCallbacks.erase cb := by
    unfold remove
    split_ifs with hcb
    · rfl
    · exact (List.erase_of_not_mem hcb).symm
  unfold removeStatusCallback unregisterReceiver
  split_ifs <;> exact hremove

@[simp] theorem removeStatusCallback_session : (s.removeStatusCallback cb).session = s.session := by
  unfold removeStatusCallback unregisterReceiver remove
  split_ifs <;> rfl

@[simp] theorem removeStatusCallback_loop : (s.removeStatusCallback cb).loop = s.loop := by
  unfold removeStatusCallback unregisterReceiver remove
  split_ifs <;> rfl

theorem removeStatusCallback_modifiedInLoop (h : s.loop = none) :
    (s.removeStatusCallback cb).modifiedInLoop = s.modifiedInLoop := by
  unfold removeStatusCallback unregisterReceiver remove
  split_ifs <;> simp [setCallbacks, h]

/-- A session answers and leaves the set, which no loop goes on to iterate. -/
theorem Waits.onOrbotReady (h : s.Waits) (hcb : cb ∈ s.statusCallbacks)
    (hloop : ∀ l, s.loop = some l → l.Fits (s.statusCallbacks.erase cb) (s.onOrbotReady host port cb).modCount) :
    (s.onOrbotReady host port cb).Waits := by
  have hposted := (h.waiting cb).mp hcb
  have hexact : (s.onOrbotReady host port cb).Exact := by
    refine Exact.removeStatusCallback (h.toExact.setSession.sendProxyCMD ?_) (by simpa using hcb)
    simpa using h.asked cb hposted.1
  have hcallbacks : (s.onOrbotReady host port cb).statusCallbacks = s.statusCallbacks.erase cb := by
    simp [Orbot.onOrbotReady, removeStatusCallback_statusCallbacks]
  have hself : ((s.onOrbotReady host port cb).session cb).timeouts = 0 ∧
      ((s.onOrbotReady host port cb).session cb).adding = false := by
    simp [Orbot.onOrbotReady, sendProxyCMD_session, hposted.2]
  have hother : ∀ j ≠ cb, (s.onOrbotReady host port cb).session j = s.session j := by
    intro j hj
    simp [Orbot.onOrbotReady, sendProxyCMD_session, hj]
  refine ⟨hexact, fun j => ?_, ?_, fun j => ?_, fun j => ?_, fun j => ?_, fun l hl => ?_⟩
  · rw [hcallbacks, h.nodup.mem_erase_iff]
    by_cases hj : j = cb
    · subst hj; simp [hself]
    · rw [hother j hj, h.waiting j]
      simp [hj]
  · rw [hcallbacks]
    exact h.nodup.erase cb
  · by_cases hj : j = cb
    · subst hj; simp [hself]
    · rw [hother j hj]; exact h.posted j
  · by_cases hj : j = cb
    · subst hj; simp [hself]
    · rw [hother j hj]; exact h.adding j
  · by_cases hj : j = cb
    · subst hj; simp [hself]
    · rw [hother j hj]; exact h.asked j
  · rw [hcallbacks]
    exact hloop l (by simpa [Orbot.onOrbotReady] using hl)

/-- The one timeout of a session answers as a ready Orbot does. -/
theorem orbotStatusTimeOut_eq (h : (s.session i).timeouts ≤ 1) :
    s.orbotStatusTimeOut i = s.onOrbotReady "127.0.0.1".toList SOCKS_PROXY_PORT_DEFAULT i := by
  have hnone : (s.session i).timeouts - 1 = 0 := by omega
  simp only [orbotStatusTimeOut, Orbot.onOrbotReady, setSession, hnone]

/-! ## The steps -/

section Steps

variable (h : s.Waits)
include h

theorem Waits.query (hnone : (s.session i).timeouts = 0) : (s.setSession i fun session =>
    { session with queryOpen := true, timeouts := session.timeouts + 1, adding := true }).Waits := by
  refine h.setSession ?_ ?_ ?_ ?_
  · simp [h.waiting i, hnone]
  · simp [hnone]
  · simp
  · simp

theorem Waits.addStatusCallback (hadding : (s.session i).adding = true) (hloop : s.loop = none) :
    ((s.addStatusCallback i).setSession i fun session => { session with adding := false }).Waits := by
  have hposted := h.adding i hadding
  have hnew : i ∉ s.statusCallbacks := by simp [h.waiting i, hadding]
  -- the receiver is registered with the first callback
  have hadded : s.addStatusCallback i = { s with
      statusCallbacks := i :: s.statusCallbacks, modCount := s.modCount + 1, registered := true } := by
    have hon : s.statusCallbacks ≠ [] → s.registered = true := h.registered.mpr
    unfold Orbot.addStatusCallback add
    split_ifs <;> simp_all [setCallbacks]
  rw [hadded]
  refine ⟨⟨h.answered, by simp [Orbot.setSession], h.unregistered, h.iterated⟩, fun j => ?_,
    List.nodup_cons.mpr ⟨hnew, h.nodup⟩, fun j => ?_, fun j => ?_, fun j => ?_, by simp [Orbot.setSession, hloop]⟩
  all_goals by_cases hj : j = i
  · subst hj; simp [Orbot.setSession, hposted]
  · simpa [Orbot.setSession, hj] using h.waiting j
  · subst hj; simpa [Orbot.setSession] using h.posted j
  · simpa [Orbot.setSession, hj] using h.posted j
  · subst hj; simp [Orbot.setSession]
  · simpa [Orbot.setSession, hj] using h.adding j
  · subst hj; simpa [Orbot.setSession] using h.asked j
  · simpa [Orbot.setSession, hj] using h.asked j

theorem Waits.setLoop {loop : Option ReceiverLoop} (hloop : ∀ l, loop = some l → l.Fits s.statusCallbacks s.modCount) :
    { s with loop }.Waits :=
  ⟨⟨h.answered, h.registered, h.unregistered, h.iterated⟩, h.waiting, h.nodup, h.posted, h.adding, h.asked, hloop⟩

theorem Waits.iterate {intent : StatusIntent} {call : StatusCall} {order : List Nat}
    (horder : order.Perm s.statusCallbacks) (hready : intent.status = some STATUS_ON → s.statusCallbacks.length ≤ 1)
    (hcall : call = .onOrbotReady → intent.status = some STATUS_ON) : (s.iterate intent call order).Waits := by
  refine h.setLoop fun l hl => ?_
  cases hl
  exact ⟨horder.subset, fun _ => rfl, hready, fun hc => horder.length_eq ▸ hready (hcall hc)⟩

theorem Waits.callback {l : ReceiverLoop} (hcb : cb ∈ s.statusCallbacks)
    (hlast : l.call = .onOrbotReady → ∀ l', s.loop = some l' → l'.rest = []) : (s.callback l cb).Waits := by
  unfold Orbot.callback
  cases hcall : l.call with
  | onStatus =>
      simp only [onStatus]
      split_ifs
      · exact ⟨⟨h.answered, h.registered, nofun, nofun⟩, h.waiting, h.nodup, h.posted, h.adding, h.asked, h.loop⟩
      · exact h
  | onDisabled => exact h
  | onOrbotReady =>
      refine h.onOrbotReady hcb fun l' hl' => ?_
      have hrest := hlast hcall l' hl'
      have hready := (h.loop l' hl').ready
      exact ⟨by simp [hrest], by simp [hrest], fun hon => List.length_erase_le.trans (hready hon), by simp [hrest]⟩

/-- The iterator finds the set as it was, and a callback that is called for a ready Orbot is the last one. -/
theorem Waits.next {l : ReceiverLoop} {rest : List Nat} (hloop : s.loop = some l) (hrest : l.rest = cb :: rest) :
    (s.next l cb rest).Waits := by
  obtain ⟨hwaiting, hcurrent, hready, hsingle⟩ := h.loop l hloop
  rw [hrest, List.cons_subset] at hwaiting
  rw [hrest, List.length_cons] at hsingle
  have hcurrent := hcurrent (by simp [hrest])
  rw [Orbot.next, if_neg (not_not.mpr hcurrent)]
  refine (h.setLoop fun l' hl' => ?_).callback hwaiting.1 fun hcall l' hl' => ?_
  · cases hl'
    exact ⟨hwaiting.2, fun _ => hcurrent, hready, fun hcall => Nat.le_of_succ_le (hsingle hcall)⟩
  · cases hl'
    exact List.length_eq_zero_iff.mp (Nat.le_zero.mp (Nat.le_of_succ_le_succ (hsingle hcall)))

theorem Waits.afterLoop {l : ReceiverLoop} {order : List Nat} (hloop : s.loop = some l)
    (horder : order.Perm s.statusCallbacks) : (s.afterLoop l order).Waits := by
  have hready := (h.loop l hloop).ready
  unfold Orbot.afterLoop
  split_ifs with hcall hon hdisabled
  · exact h.setLoop nofun
  · exact h.iterate horder hready fun _ => hon
  · exact h.iterate horder hready nofun
  · exact h.setLoop nofun

end Steps

/-- What a step keeps. -/
theorem waits_handle {e : OrbotEvent} (h : s.Waits) (hturn : s.InTurn e) (hs : s.handle e = some s') : s'.Waits := by
  cases e with
  | query i =>
      simp only [handle, Option.ite_none_right_eq_some, Option.some.injEq] at hs
      obtain ⟨-, rfl⟩ := hs
      exact h.query hturn
  | addStatusCallback i =>
      simp only [handle, Option.ite_none_right_eq_some, Option.some.injEq] at hs
      obtain ⟨hadding, rfl⟩ := hs
      exact h.addStatusCallback hadding hturn
  | broadcast intent order =>
      simp only [handle, Option.ite_none_right_eq_some, Option.some.injEq, List.isPerm_iff] at hs
      obtain ⟨⟨-, horder⟩, rfl⟩ := hs
      unfold onReceive
      split_ifs
      · exact h.iterate horder hturn nofun
      · exact h
  | next =>
      simp only [handle] at hs
      split at hs
      · next l hloop =>
          split at hs
          · next cb rest hrest =>
              cases hs
              exact h.next hloop hrest
          · cases hs
      · cases hs
  | afterLoop order =>
      simp only [handle] at hs
      split at hs
      · next l hloop =>
          simp only [Option.ite_none_right_eq_some, Option.some.injEq, List.isPerm_iff] at hs
          obtain ⟨⟨-, horder⟩, rfl⟩ := hs
          exact h.afterLoop hloop horder
      · cases hs
  | timeout i =>
      simp only [handle, Option.ite_none_right_eq_some, Option.some.injEq] at hs
      obtain ⟨⟨hloop, hposted⟩, rfl⟩ := hs
      rw [orbotStatusTimeOut_eq (h.posted i)]
      exact h.onOrbotReady ((h.waiting i).mpr ⟨hposted, hturn⟩) (by simp [hloop])
  | restarts i =>
      cases hs
      refine h.setSession (h.waiting i) (h.posted i) (h.adding i) fun hposted hconnected => ?_
      have hnone := hturn hconnected
      simp only [hnone] at hposted
      omega
  | closed i =>
      cases hs
      exact h.setSession (h.waiting i) (h.posted i) (h.adding i) nofun

/-! ## Modifications in a loop -/

/-- The set was modified in no loop, and no loop is about to. -/
def Unmodified (s : Orbot) : Prop :=
  s.modifiedInLoop = false ∧ ∀ l, s.loop = some l → l.intent.status ≠ some STATUS_ON ∧ l.call ≠ .onOrbotReady

theorem addStatusCallback_modifiedInLoop (h : s.loop = none) :
    (s.addStatusCallback cb).modifiedInLoop = s.modifiedInLoop := by
  unfold addStatusCallback add
  split_ifs <;> simp [setCallbacks, h]

theorem addStatusCallback_loop : (s.addStatusCallback cb).loop = s.loop := by
  unfold addStatusCallback add
  split_ifs <;> rfl

theorem Unmodified.callback {l : ReceiverLoop} (h : s.Unmodified) (hcall : l.call ≠ .onOrbotReady) :
    (s.callback l cb).Unmodified := by
  unfold Orbot.callback
  cases hl : l.call with
  | onStatus =>
      unfold onStatus
      split_ifs <;> exact h
  | onDisabled => exact h
  | onOrbotReady => exact absurd hl hcall

theorem Unmodified.afterLoop {l : ReceiverLoop} {order : List Nat} (h : s.Unmodified) (hloop : s.loop = some l) :
    (s.afterLoop l order).Unmodified := by
  have hready := (h.2 l hloop).1
  unfold Orbot.afterLoop
  split_ifs with hcall hdisabled
  · exact ⟨h.1, nofun⟩
  · exact ⟨h.1, fun l' hl' => by cases hl'; exact ⟨hready, nofun⟩⟩
  · exact ⟨h.1, nofun⟩

theorem unmodified_handle {e : OrbotEvent} (h : s.Unmodified) (hturn : s.InTurn e) (hheard : ¬ s.HearsReady e)
    (hs : s.handle e = some s') : s'.Unmodified := by
  cases e with
  | query i =>
      simp only [handle, Option.ite_none_right_eq_some, Option.some.injEq] at hs
      obtain ⟨-, rfl⟩ := hs
      exact h
  | addStatusCallback i =>
      simp only [handle, Option.ite_none_right_eq_some, Option.some.injEq] at hs
      obtain ⟨-, rfl⟩ := hs
      refine ⟨by simp [addStatusCallback_modifiedInLoop hturn, h.1], fun l hl => h.2 l ?_⟩
      simpa [addStatusCallback_loop] using hl
  | broadcast intent order =>
      simp only [handle, Option.ite_none_right_eq_some, Option.some.injEq] at hs
      obtain ⟨-, rfl⟩ := hs
      unfold onReceive
      split_ifs with hregistered
      · exact ⟨h.1, fun l hl => by cases hl; exact ⟨fun hon => hheard ⟨hregistered, hon⟩, nofun⟩⟩
      · exact h
  | next =>
      simp only [handle] at hs
      split at hs
      · next l hloop =>
          split at hs
          · next cb rest hrest =>
              cases hs
              obtain ⟨hready, hcall⟩ := h.2 l hloop
              unfold Orbot.next
              split_ifs
              · exact h
              · exact Unmodified.callback ⟨h.1, fun l' hl' => by cases hl'; exact ⟨hready, hcall⟩⟩ hcall
          · cases hs
      · cases hs
  | afterLoop order =>
      simp only [handle] at hs
      split at hs
      · next l hloop =>
          simp only [Option.ite_none_right_eq_some, Option.some.injEq] at hs
          obtain ⟨-, rfl⟩ := hs
          exact h.afterLoop hloop
      · cases hs
  | timeout i =>
      simp only [handle, Option.ite_none_right_eq_some, Option.some.injEq] at hs
      obtain ⟨⟨hloop, -⟩, rfl⟩ := hs
      simp only [Unmodified, orbotStatusTimeOut]
      rw [removeStatusCallback_modifiedInLoop (by simpa using hloop)]
      simpa [hloop] using h.1
  | restarts i => cases hs; exact h
  | closed i => cases hs; exact h

/-! ## Runs -/

end Orbot

end AllInSafe.Proxy
