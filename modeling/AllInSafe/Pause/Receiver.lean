import AllInSafe.Pause.Model

/-!
# The receiver and its calls

`DeviceStateReceiver` on its own: every handler ends with one call to `mManagement` at most, which is written down
with the state in which the handler leaves the receiver.
-/

namespace AllInSafe.Pause
open AllInSafe.Library

inductive Call
  | pause (reason : PauseReason)
  | resume
  | networkChange (samenetwork : Bool)
  deriving DecidableEq, Repr

namespace DeviceStateReceiver

/-! ## Handlers -/

def mDelayDisconnectRunnable (r : DeviceStateReceiver) : DeviceStateReceiver × Option Call :=
  if r.network ≠ .pendingDisconnect then (r, none)
  else
    let r : DeviceStateReceiver := { r with network := .disconnected }
    let r := if r.screen = .pendingDisconnect then { r with screen := .disconnected } else r
    (r, some (.pause r.getPauseReason))

def updateByteCount (now diffIn diffOut : Int) (r : DeviceStateReceiver) : DeviceStateReceiver × Option Call :=
  if r.screen ≠ .pendingDisconnect then (r, none)
  else
    let total := long (diffIn + diffOut)
    let trafficdata := (r.trafficdata ++ [Datapoint.mk now total]).dropWhile
      fun dp => dp.timestamp ≤ now - TRAFFIC_WINDOW * 1000
    let r := { r with trafficdata := trafficdata }
    if windowtraffic trafficdata < TRAFFIC_LIMIT then
      let r := { r with screen := .disconnected }
      (r, some (.pause r.getPauseReason))
    else (r, none)

def userPause (pause : Bool) (r : DeviceStateReceiver) : DeviceStateReceiver × Option Call :=
  if pause then
    let r := { r with userpause := .disconnected }
    (r, some (.pause r.getPauseReason))
  else
    let wereConnected := r.shouldBeConnected
    let r := { r with userpause := .shouldBeConnected }
    if r.shouldBeConnected && !wereConnected then (r, some .resume)
    else (r, some (.pause r.getPauseReason))

def screenOff (now : Int) (prefs : Preferences) (r : DeviceStateReceiver) : DeviceStateReceiver × Option Call :=
  if prefs.screenoff then
    let r := { r with screen := .pendingDisconnect }.fillTrafficData now
    let r := if r.network = .disconnected || r.userpause = .disconnected
      then { r with screen := .disconnected } else r
    (r, none)
  else (r, none)

def screenOn (r : DeviceStateReceiver) : DeviceStateReceiver × Option Call :=
  let connected := r.shouldBeConnected
  let r := { r with screen := .shouldBeConnected }
  if r.shouldBeConnected ≠ connected then (r, some .resume)
  else if !r.shouldBeConnected then (r, some (.pause r.getPauseReason))
  else (r, none)

def networkConnected (networkInfo : NetworkInfo) (r : DeviceStateReceiver) : DeviceStateReceiver × Option Call :=
  let pendingDisconnect : Bool := r.network = .pendingDisconnect
  let sameNetwork := r.sameNetwork networkInfo
  let r : DeviceStateReceiver := { r with network := .shouldBeConnected }
  if pendingDisconnect && sameNetwork then (r, some (.networkChange true))
  else
    let r := if r.screen = .pendingDisconnect then { r with screen := .disconnected } else r
    let call :=
      if r.shouldBeConnected then
        if pendingDisconnect || !sameNetwork then some (.networkChange sameNetwork) else some .resume
      else none
    ({ r with lastConnectedNetwork := some networkInfo }, call)

def networkStateChange (prefs : Preferences) (networkInfo : Option NetworkInfo) (r : DeviceStateReceiver) :
    DeviceStateReceiver × Option Call :=
  if prefs.ignorenetstate then ({ r with network := .shouldBeConnected }, none)
  else
    match networkInfo with
    | some info => if info.state = .connected then r.networkConnected info else (r, none)
    | none => if prefs.netchangereconnect then ({ r with network := .pendingDisconnect }, none) else (r, none)

/-- The handler of an event; the events of the management thread are none of the receiver's. -/
def handle (r : DeviceStateReceiver) : Event → DeviceStateReceiver × Option Call
  | .construct => ({}, none)
  | .register _ prefs networkInfo | .connectivity _ prefs networkInfo => r.networkStateChange prefs networkInfo
  | .screenOff now prefs => r.screenOff now prefs
  | .screenOn _ => r.screenOn
  | .userPause _ pause => r.userPause pause
  | .byteCount now diffIn diffOut => r.updateByteCount now diffIn diffOut
  | .delayDisconnectExpires => r.mDelayDisconnectRunnable
  | .accept | .hold | .resumeHoldExpires _ => (r, none)

end DeviceStateReceiver

/-! ## Runs with their calls -/

/-- A call, with the receiver after the handler that made it. -/
structure Made where
  call : Call
  receiver : DeviceStateReceiver
  deriving DecidableEq, Repr

structure Watched where
  receiver : DeviceStateReceiver := {}
  calls : List Made := []
  deriving DecidableEq, Repr

/-- Any event of the receiver may come at any time. -/
def Watched.step (s : Watched) (e : Event) : Option Watched :=
  match e with
  | .accept | .hold | .construct | .resumeHoldExpires _ => none
  | e =>
      let (r, call) := s.receiver.handle e
      some { receiver := r, calls := s.calls ++ call.toList.map fun c => ⟨c, r⟩ }

def watched : Machine Watched Event := ⟨{}, Watched.step⟩

/-! ## What a call says -/

/-- The cause that the reason names is off. -/
def PauseReason.Off (r : DeviceStateReceiver) : PauseReason → Prop
  | .userPause => r.userpause = .disconnected
  | .screenOff => r.screen = .disconnected
  | .noNetwork => r.network = .disconnected

instance {r : DeviceStateReceiver} : DecidablePred (PauseReason.Off r)
  | .userPause => inferInstanceAs (Decidable (r.userpause = .disconnected))
  | .screenOff => inferInstanceAs (Decidable (r.screen = .disconnected))
  | .noNetwork => inferInstanceAs (Decidable (r.network = .disconnected))

/-- A pause names a cause that is off, and is not called while the tunnel should be connected. -/
def Made.Truthful (m : Made) : Prop :=
  match m.call with
  | .pause reason => reason.Off m.receiver ∧ m.receiver.shouldBeConnected = false
  | .resume | .networkChange _ => True

instance (m : Made) : Decidable m.Truthful := by
  unfold Made.Truthful
  split <;> infer_instance

/-- The end of a pause by the user ends all pauses, or another cause is off then; the screen is not switched on while
a lost network is waited for without a pause by the user. -/
def PausesTruthfully (s : Watched) : Event → Prop
  | .userPause _ false => s.receiver.screen = .disconnected ∨ s.receiver.network = .disconnected ∨
      (s.receiver.screen = .shouldBeConnected ∧ s.receiver.network = .shouldBeConnected ∧
        s.receiver.userpause ≠ .shouldBeConnected)
  | .screenOn _ => s.receiver.userpause = .disconnected ∨ s.receiver.network ≠ .pendingDisconnect
  | _ => True

instance (s : Watched) : DecidablePred (PausesTruthfully s)
  | .userPause _ false => inferInstanceAs (Decidable (_ ∨ _ ∨ _))
  | .screenOn _ => inferInstanceAs (Decidable (_ ∨ _))
  | .userPause _ true | .accept | .hold | .construct | .register .. | .connectivity .. | .screenOff .. |
      .byteCount .. | .delayDisconnectExpires | .resumeHoldExpires _ => .isTrue trivial

end AllInSafe.Pause
