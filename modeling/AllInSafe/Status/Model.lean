import AllInSafe.Library.Feed
import AllInSafe.Library.Runs
import AllInSafe.Library.Text

/-!
# The status of the VPN in both processes

`VpnStatus` keeps the last status of its process. `OpenVPNStatusService` hands that of the `:openvpn` process to the
`StatusListener` of the UI process, once when the listener registers and then with every change.
-/

namespace AllInSafe.Status
open AllInSafe.Library

inductive ConnectionStatus
  | LEVEL_CONNECTED
  | LEVEL_VPNPAUSED
  | LEVEL_CONNECTING_SERVER_REPLIED
  | LEVEL_CONNECTING_NO_SERVER_REPLY_YET
  | LEVEL_NONETWORK
  | LEVEL_NOTCONNECTED
  | LEVEL_START
  | LEVEL_AUTH_FAILED
  | LEVEL_WAITING_FOR_USER_INPUT
  | UNKNOWN_LEVEL
  deriving DecidableEq, Repr

/-- The texts that `getLocalizedState` knows, and any other resource. -/
inductive StringRes
  | state_connecting
  | state_wait
  | state_auth
  | state_get_config
  | state_assign_ip
  | state_add_routes
  | state_connected
  | state_disconnected
  | state_reconnecting
  | state_exiting
  | state_resolve
  | state_tcp_connect
  | state_auth_pending
  | unknown_state
  | other (resid : BitVec 32)
  deriving DecidableEq, Repr

/-- `component` stands for all that is not copied when an intent is made again. -/
structure Intent (β : Type) where
  action : Option Str
  data : Option Str
  extras : Option β
  component : Option Str := none
  deriving DecidableEq, Repr

variable {β : Type}

structure UpdateMessage (β : Type) where
  state : Str
  logmessage : Str
  resId : StringRes
  level : ConnectionStatus
  intent : Option (Intent β) := none
  deriving DecidableEq, Repr

/-! ## VpnStatus -/

def getLocalizedState (state : Str) : StringRes :=
  if state = "CONNECTING".toList then .state_connecting
  else if state = "WAIT".toList then .state_wait
  else if state = "AUTH".toList then .state_auth
  else if state = "GET_CONFIG".toList then .state_get_config
  else if state = "ASSIGN_IP".toList then .state_assign_ip
  else if state = "ADD_ROUTES".toList then .state_add_routes
  else if state = "CONNECTED".toList then .state_connected
  else if state = "DISCONNECTED".toList then .state_disconnected
  else if state = "RECONNECTING".toList then .state_reconnecting
  else if state = "EXITING".toList then .state_exiting
  else if state = "RESOLVE".toList then .state_resolve
  else if state = "TCP_CONNECT".toList then .state_tcp_connect
  else if state = "AUTH_PENDING".toList then .state_auth_pending
  else .unknown_state

def getLevel (state : Str) : ConnectionStatus :=
  let noreplyet := ["CONNECTING", "WAIT", "RECONNECTING", "RESOLVE", "TCP_CONNECT"].map String.toList
  let reply := ["AUTH", "GET_CONFIG", "ASSIGN_IP", "ADD_ROUTES", "AUTH_PENDING"].map String.toList
  let connected := ["CONNECTED"].map String.toList
  let notconnected := ["DISCONNECTED", "EXITING"].map String.toList
  if state ∈ noreplyet then .LEVEL_CONNECTING_NO_SERVER_REPLY_YET
  else if state ∈ reply then .LEVEL_CONNECTING_SERVER_REPLIED
  else if state ∈ connected then .LEVEL_CONNECTED
  else if state ∈ notconnected then .LEVEL_NOTCONNECTED
  else .UNKNOWN_LEVEL

/-- The update that `updateStateString` makes of a state of OpenVPN; polling for the configuration is not announced
while the user is asked. -/
def ofState (mLastLevel : ConnectionStatus) (state msg : Str) : Option (UpdateMessage β) :=
  if mLastLevel = .LEVEL_WAITING_FOR_USER_INPUT ∧ state = "GET_CONFIG".toList then none
  else some { state := state, logmessage := msg, resId := getLocalizedState state, level := getLevel state }

/-- The workaround for OpenVPN doing AUTH and WAIT and being connected. -/
def ignores (mLast um : UpdateMessage β) : Bool :=
  mLast.level = .LEVEL_CONNECTED && (um.state = "WAIT".toList || um.state = "AUTH".toList)

/-- The last status after an update. -/
def updateStateString (mLast um : UpdateMessage β) : UpdateMessage β := if ignores mLast um then mLast else um

/-! ## StatusListener -/

def reCreateIntent (intent : Intent β) : Intent β where
  action := intent.action
  data := intent.data
  extras := intent.extras

/-- What the callback of the listener makes of an update. -/
def UpdateMessage.received (um : UpdateMessage β) : UpdateMessage β :=
  { um with intent := um.intent.map reCreateIntent }

/-! ## OpenVPNStatusService -/

/-- The service and the `VpnStatus` of its process. `mHandler` are the messages that it has not handled. -/
structure OpenVPNStatusService (β : Type) where
  mLast : UpdateMessage β
  mLastUpdateMessage : UpdateMessage β
  mHandler : List (UpdateMessage β)
  deriving DecidableEq, Repr

namespace OpenVPNStatusService

def updateState (um : UpdateMessage β) (s : OpenVPNStatusService β) : OpenVPNStatusService β :=
  { s with mLastUpdateMessage := um, mHandler := s.mHandler ++ [um] }

/-- A new listener gets the last status. -/
def onCreate (mLast : UpdateMessage β) : OpenVPNStatusService β :=
  { mLast := mLast, mLastUpdateMessage := mLast, mHandler := [mLast] }

/-- An update of `VpnStatus` that calls its listeners. -/
def update (um : UpdateMessage β) (s : OpenVPNStatusService β) : OpenVPNStatusService β :=
  if ignores s.mLast um then s else { s with mLast := um }.updateState um

end OpenVPNStatusService

/-! ## The two processes -/

/-- Where the service is in `registerStatusCallback`; `older` counts the unhandled messages that were posted before the
last update was sent to the new callback. -/
inductive Callback
  | absent
  | sent (older : Nat)
  | registered
  deriving DecidableEq, Repr

/-- `calls` are the calls of the callback that the UI process has not run; `mLast` is the `VpnStatus` of that process. -/
structure Phone (β : Type) where
  service : OpenVPNStatusService β
  callback : Callback := .absent
  calls : List (UpdateMessage β) := []
  mLast : UpdateMessage β
  deriving DecidableEq, Repr

namespace Phone

def setService (service : OpenVPNStatusService β) (w : Phone β) : Phone β := { w with service := service }

def setCallback (callback : Callback) (w : Phone β) : Phone β := { w with callback := callback }

def sendUpdate (um : UpdateMessage β) (w : Phone β) : Phone β := { w with calls := w.calls ++ [um] }

/-- A message is sent to the callbacks that are registered. -/
def handleMessage (w : Phone β) : Option (Phone β) :=
  match w.service.mHandler, w.callback with
  | [], _ => none
  | _ :: mHandler, .absent => some (w.setService { w.service with mHandler := mHandler })
  | _ :: mHandler, .sent older =>
      some ((w.setService { w.service with mHandler := mHandler }).setCallback (.sent (older - 1)))
  | um :: mHandler, .registered => some ((w.setService { w.service with mHandler := mHandler }).sendUpdate um)

/-- The first half of `registerStatusCallback`. -/
def sendLastUpdate (w : Phone β) : Option (Phone β) :=
  match w.callback with
  | .absent => some ((w.sendUpdate w.service.mLastUpdateMessage).setCallback (.sent w.service.mHandler.length))
  | _ => none

/-- The second half of `registerStatusCallback`. -/
def register (w : Phone β) : Option (Phone β) :=
  match w.callback with
  | .sent _ => some (w.setCallback .registered)
  | _ => none

/-- The next call of the callback. -/
def updateStateString (w : Phone β) : Option (Phone β) :=
  match w.calls with
  | [] => none
  | um :: calls => some { w with calls := calls, mLast := Status.updateStateString w.mLast um.received }

end Phone

inductive Event (β : Type)
  | update (um : UpdateMessage β)
  | state (state msg : Str)
  | handleMessage
  | sendLastUpdate
  | register
  | updateStateString
  /-- The UI process sets a status of its own. -/
  | updateUi (um : UpdateMessage β)
  /-- The `:openvpn` process dies and a new one starts. -/
  | restartService (mLast : UpdateMessage β)
  | restartUi (mLast : UpdateMessage β)

def Phone.step (w : Phone β) : Event β → Option (Phone β)
  | .update um => some (w.setService (w.service.update um))
  | .state state msg =>
      some (match ofState w.service.mLast.level state msg with
        | none => w
        | some um => w.setService (w.service.update um))
  | .handleMessage => w.handleMessage
  | .sendLastUpdate => w.sendLastUpdate
  | .register => w.register
  | .updateStateString => w.updateStateString
  | .updateUi um => some { w with mLast := Status.updateStateString w.mLast um }
  | .restartService mLast => some ((w.setService (.onCreate mLast)).setCallback .absent)
  | .restartUi mLast => some { w with callback := .absent, calls := [], mLast := mLast }

/-- Both processes have started, with any status of their own. -/
def phone (mLast ui : UpdateMessage β) : Machine (Phone β) (Event β) where
  init := { service := .onCreate mLast, mLast := ui }
  step := Phone.step

end AllInSafe.Status
