import AllInSafe.Status.Model

/-!
# The UI process shows the status of the service
-/

namespace AllInSafe.Status
open AllInSafe.Library

variable {β : Type} {w w' : Phone β} {um mLast : UpdateMessage β} {es : List (Event β)} {e : Event β}

theorem updateStateString_eq : updateStateString mLast um = Feed.receive ignores mLast um := rfl

@[simp] theorem ignores_received_left : ignores mLast.received um = ignores mLast um := rfl

@[simp] theorem ignores_received : ignores mLast um.received = ignores mLast um := rfl

/-! ## The service -/

/-- What the service has to tell ends with the status of its process. -/
structure OpenVPNStatusService.Telling (s : OpenVPNStatusService β) : Prop where
  current : s.mLastUpdateMessage = s.mLast
  published : Feed.Published ignores s.mHandler
  ends : ∀ um ∈ s.mHandler.getLast?, um = s.mLast

namespace OpenVPNStatusService

variable {s : OpenVPNStatusService β}

theorem telling_onCreate : (onCreate mLast).Telling where
  current := rfl
  published := List.isChain_singleton mLast
  ends := by simp [onCreate]

theorem update_of_ignores (h : ignores s.mLast um = true) : s.update um = s := if_pos h

theorem mHandler_update (h : ignores s.mLast um = false) : (s.update um).mHandler = s.mHandler ++ [um] := by
  simp [update, h, updateState]

theorem mLast_update (h : ignores s.mLast um = false) : (s.update um).mLast = um := by
  simp [update, h, updateState]

theorem Telling.update (h : s.Telling) : (s.update um).Telling := by
  cases hum : ignores s.mLast um with
  | true => rwa [update_of_ignores hum]
  | false =>
      constructor
      case current => simp [OpenVPNStatusService.update, hum, updateState]
      case published =>
        rw [mHandler_update hum]
        exact h.published.concat fun n hn => by rw [h.ends n hn, hum]
      case ends => simp [mHandler_update hum, mLast_update hum]

theorem Telling.handle {mHandler : List (UpdateMessage β)} (h : s.Telling) (hs : s.mHandler = um :: mHandler) :
    ({ s with mHandler := mHandler } : OpenVPNStatusService β).Telling where
  current := h.current
  published := (hs ▸ h.published).tail
  ends n hn := by
    refine h.ends n ?_
    cases mHandler with
    | nil => cases hn
    | cons next mHandler => rwa [hs, List.getLast?_cons_cons]

end OpenVPNStatusService

/-! ## What one step does -/

/-- What the UI process makes of messages, after the calls that wait for it. -/
def Phone.Reaches (w : Phone β) (ms : List (UpdateMessage β)) : Prop :=
  Feed.Reaches ignores w.mLast ((w.calls ++ ms).map UpdateMessage.received) w.service.mLast.received

/-- The messages that still come to the UI process bring it to the status of the service: all that are not handled, and
before the callback is registered also without some of the older ones. -/
def Phone.Informed (w : Phone β) : Prop :=
  match w.callback with
  | .absent => True
  | .sent older => older ≤ w.service.mHandler.length ∧ ∀ k ≤ older, w.Reaches (w.service.mHandler.drop k)
  | .registered => w.Reaches w.service.mHandler

namespace Phone

variable {ms : List (UpdateMessage β)} {older k : Nat}

theorem reaches_update (h : ignores w.service.mLast um = false) :
    (w.setService (w.service.update um)).Reaches (ms ++ [um]) := by
  rw [Reaches, setService, OpenVPNStatusService.mLast_update h, ← List.append_assoc, List.map_append,
    List.map_singleton]
  exact Feed.reaches_append_last

/-- What is published before the last update does no harm behind it. -/
theorem reaches_sent (h : w.service.Telling) :
    (w.sendUpdate w.service.mLastUpdateMessage).Reaches (w.service.mHandler.drop k) := by
  rw [Reaches, sendUpdate, List.map_append, List.map_append, List.map_singleton, h.current]
  refine Feed.reaches_append_last.replayed ?_ fun n hn => ?_
  · rw [Feed.Published, List.isChain_map]
    simpa using h.published.drop k
  · rw [List.getLast?_map, List.getLast?_drop] at hn
    split_ifs at hn
    · cases hn
    · obtain ⟨um, hum, rfl⟩ := Option.map_eq_some_iff.mp hn
      rw [h.ends um hum]

/-- A call that waits is the first of the messages. -/
theorem reaches_call {callback : Callback} {calls : List (UpdateMessage β)} (h : w.calls = um :: calls) :
    w.Reaches ms ↔ Reaches ⟨w.service, callback, calls, Status.updateStateString w.mLast um.received⟩ ms := by
  rw [Reaches, h, List.cons_append, List.map_cons, Feed.reaches_cons, ← updateStateString_eq, Reaches]

namespace Informed

theorem of_absent (h : w.callback = .absent) : w.Informed := by
  rw [Informed, h]
  trivial

theorem update (h : w.Informed) : (w.setService (w.service.update um)).Informed := by
  cases hum : ignores w.service.mLast um with
  | true => rwa [OpenVPNStatusService.update_of_ignores hum]
  | false =>
      cases hcallback : w.callback with
      | absent => exact of_absent hcallback
      | sent older =>
          simp only [Informed, hcallback] at h
          have hlength : older ≤ (w.service.update um).mHandler.length := by
            rw [OpenVPNStatusService.mHandler_update hum, List.length_append]
            exact Nat.le_add_right_of_le h.1
          simp only [Informed, setService, hcallback]
          refine ⟨hlength, fun k hk => ?_⟩
          rw [OpenVPNStatusService.mHandler_update hum, List.drop_append_of_le_length (hk.trans h.1)]
          exact reaches_update hum
      | registered =>
          simp only [Informed, setService, hcallback]
          rw [OpenVPNStatusService.mHandler_update hum]
          exact reaches_update hum

theorem handleMessage (h : w.Informed) (htimely : w.callback ≠ .sent 0) (hstep : w.handleMessage = some w') :
    w'.Informed := by
  unfold Phone.handleMessage at hstep
  split at hstep
  case h_1 => cases hstep
  case h_2 mHandler hhandler hcallback =>
    cases hstep
    exact of_absent hcallback
  case h_3 mHandler older hhandler hcallback =>
    cases hstep
    simp only [Informed, hcallback, hhandler] at h
    cases older with
    | zero => exact absurd hcallback htimely
    | succ older => exact ⟨Nat.le_of_succ_le_succ h.1, fun k hk => h.2 (k + 1) (Nat.succ_le_succ hk)⟩
  case h_4 mHandler hhandler hcallback =>
    cases hstep
    simp only [Informed, hcallback, hhandler] at h
    simp only [Informed, sendUpdate, setService, hcallback]
    simpa [Reaches] using h

theorem sendLastUpdate (h : w.service.Telling) (hstep : w.sendLastUpdate = some w') : w'.Informed := by
  unfold Phone.sendLastUpdate at hstep
  split at hstep
  case h_1 =>
    cases hstep
    exact ⟨le_refl _, fun k _ => reaches_sent h⟩
  case h_2 => cases hstep

theorem register (h : w.Informed) (hstep : w.register = some w') : w'.Informed := by
  unfold Phone.register at hstep
  split at hstep
  case h_1 older hcallback =>
    cases hstep
    simp only [Informed, hcallback] at h
    exact h.2 0 (Nat.zero_le older)
  case h_2 => cases hstep

theorem updateStateString (h : w.Informed) (hstep : w.updateStateString = some w') : w'.Informed := by
  unfold Phone.updateStateString at hstep
  split at hstep
  case h_1 => cases hstep
  case h_2 um calls hcalls =>
    cases hstep
    cases hcallback : w.callback with
    | absent => exact of_absent rfl
    | sent older =>
        simp only [Informed, hcallback] at h
        exact ⟨h.1, fun k hk => (reaches_call hcalls).mp (h.2 k hk)⟩
    | registered =>
        simp only [Informed, hcallback] at h
        exact (reaches_call hcalls).mp h

end Informed

/-- The service of every reachable state tells the status of its process in the end. -/
theorem telling_step (h : w.service.Telling) (hstep : w.step e = some w') : w'.service.Telling := by
  cases e with
  | update um => cases hstep; exact h.update
  | state state msg =>
      cases hstep
      cases ofState w.service.mLast.level state msg with
      | none => exact h
      | some um => exact h.update
  | handleMessage =>
      simp only [step, handleMessage] at hstep
      split at hstep
      case h_1 => cases hstep
      case h_2 hhandler _ => cases hstep; exact h.handle hhandler
      case h_3 hhandler _ => cases hstep; exact h.handle hhandler
      case h_4 hhandler _ => cases hstep; exact h.handle hhandler
  | sendLastUpdate =>
      simp only [step, sendLastUpdate] at hstep
      split at hstep <;> cases hstep
      exact h
  | register =>
      simp only [step, register] at hstep
      split at hstep <;> cases hstep
      exact h
  | updateStateString =>
      simp only [step, updateStateString] at hstep
      split at hstep <;> cases hstep
      exact h
  | updateUi um => cases hstep; exact h
  | restartService mLast => cases hstep; exact OpenVPNStatusService.telling_onCreate
  | restartUi mLast => cases hstep; exact h

/-- No message is handled between the two halves of `registerStatusCallback` that was posted in between, and the UI
process does not set a status of its own from then on. -/
def Timely (w : Phone β) : Event β → Prop
  | .handleMessage => w.callback ≠ .sent 0
  | .updateUi _ => w.callback = .absent
  | _ => True

theorem Informed.step (h : w.Informed) (hs : w.service.Telling) (htimely : w.Timely e) (hstep : w.step e = some w') :
    w'.Informed := by
  cases e with
  | update um => cases hstep; exact h.update
  | state state msg =>
      cases hstep
      cases ofState w.service.mLast.level state msg with
      | none => exact h
      | some um => exact h.update
  | handleMessage => exact h.handleMessage htimely hstep
  | sendLastUpdate => exact Informed.sendLastUpdate hs hstep
  | register => exact h.register hstep
  | updateStateString => exact h.updateStateString hstep
  | updateUi um => cases hstep; exact of_absent htimely
  | restartService mLast => cases hstep; exact of_absent rfl
  | restartUi mLast => cases hstep; exact of_absent rfl

instance (w : Phone β) : (e : Event β) → Decidable (w.Timely e)
  | .handleMessage => inferInstanceAs (Decidable (w.callback ≠ .sent 0))
  | .updateUi _ => inferInstanceAs (Decidable (w.callback = .absent))
  | .update _ | .state _ _ | .sendLastUpdate | .register | .updateStateString | .restartService _ | .restartUi _ =>
      isTrue trivial

/-- All that was posted is handled, and all calls have been run. -/
structure Settled (w : Phone β) : Prop where
  callback : w.callback = .registered
  handled : w.service.mHandler = []
  run : w.calls = []

/-- The UI process has the status of the service, but for an intent that has been made again, or ignores it. -/
def Shows (w : Phone β) : Prop := w.mLast = w.service.mLast.received ∨ ignores w.mLast w.service.mLast = true

theorem Informed.shows (h : w.Informed) (hsettled : w.Settled) : w.Shows := by
  simpa [Shows, Informed, hsettled.callback, Reaches, hsettled.handled, hsettled.run, Feed.Reaches] using h

end Phone

/-! ## Runs -/

variable {ui : UpdateMessage β}

/-- However the two processes work and restart, once all is delivered the UI process shows the status of the service, if
no update falls between the two halves of the registration. -/
theorem ui_shows_status (mLast ui : UpdateMessage β) (es : List (Event β)) (w : Phone β)
    (hrun : (phone mLast ui).runFrom (phone mLast ui).init es = some w)
    (htimely : (phone mLast ui).StepsMeet Phone.Timely (phone mLast ui).init es) (hsettled : w.Settled) : w.Shows := by
  have hinv : w.service.Telling ∧ w.Informed :=
    htimely.invariant (I := fun w => w.service.Telling ∧ w.Informed)
      (fun w e w' h ht hstep => ⟨Phone.telling_step h.1 hstep, h.2.step h.1 ht hstep⟩)
      ⟨OpenVPNStatusService.telling_onCreate, Phone.Informed.of_absent rfl⟩ hrun
  exact hinv.2.shows hsettled

def noProcess : UpdateMessage Unit :=
  ⟨"NOPROCESS".toList, [], .other 1, .LEVEL_NOTCONNECTED, none⟩

def connected : UpdateMessage Unit :=
  ⟨"CONNECTED".toList, "SUCCESS".toList, .state_connected, .LEVEL_CONNECTED, none⟩

/-- A status is posted between the two halves of the registration, but handled behind it. -/
def connectedRun : List (Event Unit) :=
  [.state "CONNECTING".toList [], .sendLastUpdate, .handleMessage, .state connected.state connected.logmessage,
    .register, .handleMessage, .updateStateString, .handleMessage, .updateStateString, .updateStateString]

def connectedEnd : Phone Unit where
  service := ⟨connected, connected, []⟩
  callback := .registered
  mLast := connected

theorem ui_shows_status_connected : connectedEnd.Settled ∧ connectedEnd.Shows :=
  have hsettled : connectedEnd.Settled := ⟨rfl, rfl, rfl⟩
  ⟨hsettled, ui_shows_status noProcess noProcess connectedRun connectedEnd (by decide +kernel) (by decide +kernel)
    hsettled⟩

/-- The states of both processes after a run. -/
def states (es : List (Event Unit)) : Option (Str × Str) :=
  ((phone noProcess noProcess).runFrom (phone noProcess noProcess).init es).map fun w =>
    (w.service.mLast.state, w.mLast.state)

/-- A status that is handled between the two halves never reaches the UI process. -/
example : states [.handleMessage, .sendLastUpdate, .state connected.state connected.logmessage, .handleMessage,
    .register, .updateStateString] = some ("CONNECTED".toList, "NOPROCESS".toList) := by
  decide +kernel

/-- The UI process stays connected to a service that has restarted and waits for its server. -/
example : states [.handleMessage, .state connected.state connected.logmessage, .sendLastUpdate, .handleMessage,
    .register, .updateStateString, .restartService noProcess, .handleMessage, .state "WAIT".toList [],
    .sendLastUpdate, .handleMessage, .register, .updateStateString] =
      some ("WAIT".toList, "CONNECTED".toList) := by
  decide +kernel

/-! ## Recovery -/

/-- Neither process restarts, and the UI process sets no status of its own. -/
def Event.Undisturbed : Event β → Prop
  | .updateUi _ | .restartService _ | .restartUi _ => False
  | _ => True

instance : (e : Event β) → Decidable e.Undisturbed
  | .updateUi _ | .restartService _ | .restartUi _ => isFalse id
  | .update _ | .state _ _ | .handleMessage | .sendLastUpdate | .register | .updateStateString => isTrue trivial

theorem Phone.registered_step (h : w.callback = .registered) (he : e.Undisturbed) (hstep : w.step e = some w') :
    w'.callback = .registered := by
  cases e with
  | update um => cases hstep; exact h
  | state state msg =>
      cases hstep
      cases ofState w.service.mLast.level state msg with
      | none => exact h
      | some um => exact h
  | handleMessage =>
      cases hhandler : w.service.mHandler with
      | nil => simp [step, handleMessage, hhandler] at hstep
      | cons um mHandler =>
          simp only [step, handleMessage, hhandler, h] at hstep
          cases hstep
          exact h
  | sendLastUpdate => simp [step, sendLastUpdate, h] at hstep
  | register => simp [step, register, h] at hstep
  | updateStateString =>
      simp only [step, updateStateString] at hstep
      split at hstep <;> cases hstep
      exact h
  | updateUi um => exact he.elim
  | restartService mLast => exact he.elim
  | restartUi mLast => exact he.elim

theorem Phone.timely_of_registered (h : w.callback = .registered) (he : e.Undisturbed) : w.Timely e := by
  cases e with
  | handleMessage => simp [Timely, h]
  | updateUi um => exact he.elim
  | _ => trivial

theorem Phone.Informed.run {mLast ui : UpdateMessage β} {t : Phone β} (h : w.Informed) (hs : w.service.Telling)
    (hcallback : w.callback = .registered) (hes : ∀ e ∈ es, e.Undisturbed)
    (hrun : (phone mLast ui).runFrom w es = some t) : t.Informed := by
  induction es generalizing w with
  | nil => cases hrun; exact h
  | cons e es ih =>
      obtain ⟨w', hstep, hrun⟩ := Machine.runFrom_cons.mp hrun
      obtain ⟨he, hes⟩ := List.forall_mem_cons.mp hes
      have htimely := Phone.timely_of_registered hcallback he
      exact ih (h.step hs htimely hstep) (Phone.telling_step hs hstep) (Phone.registered_step hcallback he hstep) hes
        hrun

/-- Whatever has happened before, the next status that the service takes puts the UI process right. -/
theorem ui_recovers (mLast ui um : UpdateMessage β) (es es' : List (Event β)) (w t : Phone β)
    (hrun : (phone mLast ui).runFrom (phone mLast ui).init es = some w) (hcallback : w.callback = .registered)
    (htaken : ignores w.service.mLast um = false)
    (hrun' : (phone mLast ui).runFrom w (.update um :: es') = some t) (hes' : ∀ e ∈ es', e.Undisturbed)
    (hsettled : t.Settled) : t.Shows := by
  have htelling : w.service.Telling :=
    (phone mLast ui).invariant (I := fun w => w.service.Telling) (fun w e w' h hstep => Phone.telling_step h hstep)
      OpenVPNStatusService.telling_onCreate hrun
  obtain ⟨w', hstep, hrun'⟩ := Machine.runFrom_cons.mp hrun'
  cases hstep
  have hinformed : (w.setService (w.service.update um)).Informed := by
    simp only [Phone.Informed, Phone.setService, hcallback]
    rw [OpenVPNStatusService.mHandler_update htaken]
    exact Phone.reaches_update htaken
  exact (hinformed.run htelling.update hcallback hes' hrun').shows hsettled

/-- The status that was lost between the two halves of the registration is followed by another one. -/
def lostRun : List (Event Unit) :=
  [.handleMessage, .sendLastUpdate, .state connected.state connected.logmessage, .handleMessage, .register,
    .updateStateString]

def lostEnd : Phone Unit where
  service := ⟨connected, connected, []⟩
  callback := .registered
  mLast := noProcess

def exiting : UpdateMessage Unit := ⟨"EXITING".toList, [], .state_exiting, .LEVEL_NOTCONNECTED, none⟩

def exitingEnd : Phone Unit where
  service := ⟨exiting, exiting, []⟩
  callback := .registered
  mLast := exiting

theorem ui_recovers_lost : exitingEnd.Settled ∧ exitingEnd.Shows :=
  have hsettled : exitingEnd.Settled := ⟨rfl, rfl, rfl⟩
  ⟨hsettled, ui_recovers noProcess noProcess exiting lostRun [.handleMessage, .updateStateString] lostEnd exitingEnd
    (by decide +kernel) rfl rfl (by decide +kernel) (by decide) hsettled⟩

end AllInSafe.Status
