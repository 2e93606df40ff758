import AllInSafe.Library.Runs
import Mathlib

/-!
# The pause logic of a session

`DeviceStateReceiver` decides whether the tunnel should be connected, `OpenVpnManagementThread` holds and
releases the OpenVPN process. Both run on the handlers of one process; a handler is one event here.
-/

namespace AllInSafe.Pause
open AllInSafe.Library

inductive ConnectState
  | shouldBeConnected
  | pendingDisconnect
  | disconnected
  deriving DecidableEq, Repr

inductive PauseReason
  | noNetwork
  | userPause
  | screenOff
  deriving DecidableEq, Repr

inductive NetworkState
  | connecting
  | connected
  | suspended
  | disconnecting
  | disconnected
  | unknown
  deriving DecidableEq, Repr

/-- What the receiver reads of Android's `NetworkInfo`. -/
structure NetworkInfo where
  type : Int
  state : NetworkState
  extraInfo : Option String
  deriving DecidableEq, Repr

structure Datapoint where
  timestamp : Int
  data : Int
  deriving DecidableEq, Repr

/-- The value of a `long` after an overflow. -/
def long (n : Int) : Int := n.bmod (2 ^ 64)

def windowtraffic (trafficdata : List Datapoint) : Int :=
  trafficdata.foldl (fun sum dp => long (sum + dp.data)) 0

/-- The preferences that the receiver reads, with their defaults. -/
structure Preferences where
  ignorenetstate : Bool := false
  netchangereconnect : Bool := true
  screenoff : Bool := false
  deriving DecidableEq, Repr

/-- Window time in s. -/
def TRAFFIC_WINDOW : Int := 60
/-- Data traffic limit in bytes. -/
def TRAFFIC_LIMIT : Int := 64 * 1024

def mBytecountInterval : Nat := 2

structure DeviceStateReceiver where
  network : ConnectState := .disconnected
  screen : ConnectState := .shouldBeConnected
  userpause : ConnectState := .shouldBeConnected
  lastConnectedNetwork : Option NetworkInfo := none
  trafficdata : List Datapoint := []
  deriving DecidableEq, Repr

/-- A command written to the management socket, with `shouldBeConnected()` at the moment of the write. -/
structure Write where
  command : String
  connected : Bool
  deriving DecidableEq, Repr

/-- How far the receiver of the session is set up. -/
inductive ReceiverPhase
  | absent
  | constructed
  | registered
  deriving DecidableEq, Repr

/-- The management thread, the receiver that is or will be its pause callback, and the delayed runnables
that wait on their handlers. -/
structure Session where
  mSocket : Bool := false
  mWaitingForRelease : Bool := false
  mLastHoldRelease : Int := 0
  lastPauseReason : PauseReason := .noNetwork
  phase : ReceiverPhase := .absent
  receiver : DeviceStateReceiver := {}
  /-- Posted and not yet run `mResumeHoldRunnable`s. -/
  resumeHolds : Nat := 0
  /-- Posted and not yet run `mDelayDisconnectRunnable`s. -/
  delayedDisconnects : Nat := 0
  written : List Write := []
  deriving DecidableEq, Repr

namespace DeviceStateReceiver

def shouldBeConnected (r : DeviceStateReceiver) : Bool :=
  r.screen = .shouldBeConnected && r.userpause = .shouldBeConnected && r.network = .shouldBeConnected

def getPauseReason (r : DeviceStateReceiver) : PauseReason :=
  if r.userpause = .disconnected then .userPause
  else if r.screen = .disconnected then .screenOff
  else if r.network = .disconnected then .noNetwork
  else .userPause

def fillTrafficData (now : Int) (r : DeviceStateReceiver) : DeviceStateReceiver :=
  { r with trafficdata := r.trafficdata ++ [⟨now, TRAFFIC_LIMIT⟩] }

def sameNetwork (r : DeviceStateReceiver) (networkInfo : NetworkInfo) : Bool :=
  match r.lastConnectedNetwork with
  | none => false
  | some last => last.type = networkInfo.type && last.extraInfo = networkInfo.extraInfo

end DeviceStateReceiver

namespace Session

/-! ## OpenVpnManagementThread -/

/-- The constructor of the receiver makes it the pause callback. -/
def mPauseCallback (s : Session) : Bool := s.phase ≠ .absent

def registered (s : Session) : Bool := s.phase = .registered

def shouldBeRunning (s : Session) : Bool := s.mPauseCallback && s.receiver.shouldBeConnected

def managmentCommand (cmd : String) (s : Session) : Session :=
  if s.mSocket then { s with written := s.written ++ [⟨cmd, s.receiver.shouldBeConnected⟩] } else s

/-- The wait time of the message only delays the runnable: it is one of the events to come. -/
def handleHold (s : Session) : Session :=
  let s := { s with mWaitingForRelease := true }
  if s.shouldBeRunning then { s with resumeHolds := s.resumeHolds + 1 } else s

/-- `now` is the time at which the handler starts; it sleeps when the last release is too recent. -/
def releaseHoldCmd (now : Int) (s : Session) : Session :=
  let wake := if now - s.mLastHoldRelease < 5000 then now + 3000 else now
  { s with resumeHolds := 0, mWaitingForRelease := false, mLastHoldRelease := wake }
    |>.managmentCommand "hold release\n"
    |>.managmentCommand s!"bytecount {mBytecountInterval}\n"
    |>.managmentCommand "state on\n"

def releaseHold (now : Int) (s : Session) : Session :=
  if s.mWaitingForRelease then s.releaseHoldCmd now else s

def mResumeHoldRunnable (now : Int) (s : Session) : Session :=
  if s.shouldBeRunning then s.releaseHoldCmd now else s

def networkChange (now : Int) (samenetwork : Bool) (s : Session) : Session :=
  if s.mWaitingForRelease then s.releaseHold now
  else if samenetwork then s.managmentCommand "network-change samenetwork\n"
  else s.managmentCommand "network-change\n"

def signalusr1 (s : Session) : Session :=
  let s := { s with resumeHolds := 0 }
  if !s.mWaitingForRelease then s.managmentCommand "signal SIGUSR1\n" else s

def pause (reason : PauseReason) (s : Session) : Session :=
  { s with lastPauseReason := reason }.signalusr1

def resume (now : Int) (s : Session) : Session :=
  { s.releaseHold now with lastPauseReason := .noNetwork }

/-! ## DeviceStateReceiver -/

def mDelayDisconnectRunnable (s : Session) : Session :=
  if s.receiver.network ≠ .pendingDisconnect then s
  else
    let r : DeviceStateReceiver := { s.receiver with network := .disconnected }
    let r := if r.screen = .pendingDisconnect then { r with screen := .disconnected } else r
    { s with receiver := r }.pause r.getPauseReason

def updateByteCount (now diffIn diffOut : Int) (s : Session) : Session :=
  if s.receiver.screen ≠ .pendingDisconnect then s
  else
    let total := long (diffIn + diffOut)
    let trafficdata := (s.receiver.trafficdata ++ [Datapoint.mk now total]).dropWhile
      fun dp => dp.timestamp ≤ now - TRAFFIC_WINDOW * 1000
    let r := { s.receiver with trafficdata := trafficdata }
    if windowtraffic trafficdata < TRAFFIC_LIMIT then
      let r := { r with screen := .disconnected }
      { s with receiver := r }.pause r.getPauseReason
    else { s with receiver := r }

def userPause (now : Int) (pause : Bool) (s : Session) : Session :=
  if pause then
    let r := { s.receiver with userpause := .disconnected }
    { s with receiver := r }.pause r.getPauseReason
  else
    let wereConnected := s.receiver.shouldBeConnected
    let r := { s.receiver with userpause := .shouldBeConnected }
    if r.shouldBeConnected && !wereConnected then { s with receiver := r }.resume now
    else { s with receiver := r }.pause r.getPauseReason

def screenOff (now : Int) (prefs : Preferences) (s : Session) : Session :=
  if prefs.screenoff then
    let r := { s.receiver with screen := .pendingDisconnect }.fillTrafficData now
    let r := if r.network = .disconnected || r.userpause = .disconnected
      then { r with screen := .disconnected } else r
    { s with receiver := r }
  else s

def screenOn (now : Int) (s : Session) : Session :=
  let connected := s.receiver.shouldBeConnected
  let r := { s.receiver with screen := .shouldBeConnected }
  let s := { s with receiver := r, delayedDisconnects := 0 }
  if r.shouldBeConnected ≠ connected then s.resume now
  else if !r.shouldBeConnected then s.pause r.getPauseReason
  else s

/-- The branch of `networkStateChange` for an active network in the state `CONNECTED`. -/
def networkConnected (now : Int) (networkInfo : NetworkInfo) (s : Session) : Session :=
  let pendingDisconnect : Bool := s.receiver.network = .pendingDisconnect
  let sameNetwork := s.receiver.sameNetwork networkInfo
  let r : DeviceStateReceiver := { s.receiver with network := .shouldBeConnected }
  if pendingDisconnect && sameNetwork then
    { s with receiver := r, delayedDisconnects := 0 }.networkChange now true
  else
    let r := if r.screen = .pendingDisconnect then { r with screen := .disconnected } else r
    let s := { s with receiver := r }
    let s :=
      if r.shouldBeConnected then
        let s := { s with delayedDisconnects := 0 }
        if pendingDisconnect || !sameNetwork then s.networkChange now sameNetwork else s.resume now
      else s
    { s with receiver := { s.receiver with lastConnectedNetwork := some networkInfo } }

def networkStateChange (now : Int) (prefs : Preferences) (networkInfo : Option NetworkInfo)
    (s : Session) : Session :=
  if prefs.ignorenetstate then
    { s with receiver := { s.receiver with network := .shouldBeConnected } }
  else
    match networkInfo with
    | some info => if info.state = .connected then s.networkConnected now info else s
    | none =>
        if prefs.netchangereconnect then
          { s with
            receiver := { s.receiver with network := .pendingDisconnect }
            delayedDisconnects := s.delayedDisconnects + 1 }
        else s

end Session

/-! ## Events -/

/-- What can happen in a session, with the time at which its handler runs. -/
inductive Event
  /-- The OpenVPN process connects to the management socket. -/
  | accept
  /-- `>HOLD:Waiting for hold release:10`, with any wait time. -/
  | hold
  /-- `new DeviceStateReceiver(mManagement)` on the command thread. -/
  | construct
  /-- `registerDeviceStateReceiver` on the main thread, which fetches the network state first. -/
  | register (now : Int) (prefs : Preferences) (networkInfo : Option NetworkInfo)
  | connectivity (now : Int) (prefs : Preferences) (networkInfo : Option NetworkInfo)
  | screenOff (now : Int) (prefs : Preferences)
  | screenOn (now : Int)
  | userPause (now : Int) (pause : Bool)
  | byteCount (now diffIn diffOut : Int)
  | delayDisconnectExpires
  | resumeHoldExpires (now : Int)
  deriving DecidableEq, Repr

/-- An event with the handler that runs for it; `none` where nothing delivers the event. -/
def Session.step (s : Session) : Event → Option Session
  | .accept => if s.mSocket then none else some ({ s with mSocket := true }.managmentCommand "version 3\n")
  | .hold => if s.mSocket then some s.handleHold else none
  | .construct => if s.phase = .absent then some { s with receiver := {}, phase := .constructed } else none
  | .register now prefs networkInfo =>
      if s.phase = .constructed then
        some { s.networkStateChange now prefs networkInfo with phase := .registered }
      else none
  | .connectivity now prefs networkInfo =>
      if s.registered then some (s.networkStateChange now prefs networkInfo) else none
  | .screenOff now prefs => if s.registered then some (s.screenOff now prefs) else none
  | .screenOn now => if s.registered then some (s.screenOn now) else none
  | .userPause now pause => if s.registered then some (s.userPause now pause) else none
  | .byteCount now diffIn diffOut =>
      if s.registered then some (s.updateByteCount now diffIn diffOut) else none
  | .delayDisconnectExpires =>
      if s.delayedDisconnects = 0 then none
      else some { s with delayedDisconnects := s.delayedDisconnects - 1 }.mDelayDisconnectRunnable
  | .resumeHoldExpires now =>
      if s.resumeHolds = 0 then none
      else some ({ s with resumeHolds := s.resumeHolds - 1 }.mResumeHoldRunnable now)

/-- A session from the start of its management thread on. -/
def session : Machine Session Event := ⟨{}, Session.step⟩

end AllInSafe.Pause
