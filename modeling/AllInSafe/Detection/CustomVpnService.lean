import AllInSafe.Library.Runs

/-!
# The capture of a detection session

`CustomVpnService`, with its posted capture starts and its timers. Sessions are numbered by their interfaces. A timer runs
on a thread of its own: its test of `isCapturing`, its call of `stopVpn` and, on the main thread, its `spoofingEnd` are
three events, between which others can happen.
-/

namespace AllInSafe.Detection
open AllInSafe.Library

/-- A launched timer that is neither cancelled nor over. -/
structure Timer where
  job : Nat
  /-- The interface for which it was launched. -/
  session : Nat
  deadline : Nat
  deriving DecidableEq, Repr

/-- A timer that has found `isCapturing` set and has not called `stopVpn` yet. -/
structure ExpiredTimer where
  timer : Timer
  /-- Its job has been cancelled in the meantime, or its service destroyed. -/
  cancelled : Bool := false
  destroyed : Bool := false
  deriving DecidableEq, Repr

/-- A call of `stopVpn` by a timer. -/
structure TimerStop where
  session : Nat
  /-- The interface that it closes. -/
  vpnInterface : Option Nat
  /-- How long packets were captured. -/
  captured : Nat
  /-- Packets have completed the session before. -/
  completed : Bool
  deriving DecidableEq, Repr

/-- A call of `spoofingEnd` by a timer. -/
structure TimerEnd where
  session : Nat
  vpnInterface : Option Nat
  deriving DecidableEq, Repr

structure CustomVpnService where
  now : Nat := 0
  vpnInterface : Option Nat := none
  /-- When the posted capture starts are due. -/
  captureStarts : List Nat := []
  /-- In `SpoofingDetectingStatusManager`. -/
  isCapturing : Bool := false
  packetCaptureJob : Option Nat := none
  timerJob : Option Nat := none
  timers : List Timer := []
  expired : List ExpiredTimer := []
  /-- The timers that have called `stopVpn` and wait for the main thread. -/
  ending : List Timer := []
  /-- The numbers of the next interface and of the next timer. -/
  nextSession : Nat := 0
  nextJob : Nat := 0
  /-- When the last capture has started, and whether packets have completed the session of the interface. -/
  capturedSince : Nat := 0
  completed : Bool := false
  timerStops : List TimerStop := []
  timerEnds : List TimerEnd := []
  deriving DecidableEq, Repr

namespace CustomVpnService

/-! ## Stopping -/

def stopPacketCapture (s : CustomVpnService) : CustomVpnService :=
  { s with isCapturing := false, packetCaptureJob := none }

/-- A cancelled timer still calls `stopVpn` once it has made its test, but not `spoofingEnd`. -/
def stopTimer (s : CustomVpnService) : CustomVpnService :=
  { s with
    timers := s.timers.filter fun timer => some timer.job ≠ s.timerJob
    expired := s.expired.map fun e => if some e.timer.job = s.timerJob then { e with cancelled := true } else e
    ending := s.ending.filter fun timer => some timer.job ≠ s.timerJob
    timerJob := none }

def stopVpn (s : CustomVpnService) : CustomVpnService := { s.stopPacketCapture with vpnInterface := none }

/-- The scope of the service is cancelled with all of its jobs; another start creates another service. -/
def onDestroy (s : CustomVpnService) : CustomVpnService :=
  { s.stopVpn with
    captureStarts := []
    timers := []
    expired := s.expired.map fun e => { e with cancelled := true, destroyed := true }
    ending := []
    timerJob := none }

/-! ## Starting -/

/-- Where no interface is established, the service stops itself. -/
def startVpnSafely (established : Bool) (s : CustomVpnService) : CustomVpnService :=
  if established then
    { s.stopVpn with
      vpnInterface := some s.nextSession
      nextSession := s.nextSession + 1
      completed := false
      captureStarts := s.captureStarts ++ [s.now + 300] }
  else s.onDestroy

def startPacketCapture (s : CustomVpnService) : CustomVpnService :=
  match s.vpnInterface with
  | none => s
  | some session =>
      if s.isCapturing then s
      else
        { s with
          isCapturing := true
          packetCaptureJob := some session
          timerJob := some s.nextJob
          timers := ⟨s.nextJob, session, s.now + 5000⟩ :: s.timers
          nextJob := s.nextJob + 1
          capturedSince := s.now }

/-! ## Ending -/

/-- The test of a timer after its delay. -/
def timeout (timer : Timer) (s : CustomVpnService) : CustomVpnService :=
  let s := { s with timers := s.timers.erase timer }
  if s.isCapturing then { s with expired := ⟨timer, false, false⟩ :: s.expired } else s

/-- The call of `stopVpn`. In a service that has been destroyed there is no interface any more; the flag is shared. -/
def timeoutStop (e : ExpiredTimer) (s : CustomVpnService) : CustomVpnService :=
  let stop : TimerStop :=
    ⟨e.timer.session, if e.destroyed then none else s.vpnInterface, s.now - s.capturedSince, s.completed⟩
  let stopped := if e.destroyed then { s with isCapturing := false } else s.stopVpn
  { stopped with
    expired := s.expired.erase e
    ending := if e.cancelled then s.ending else e.timer :: s.ending
    timerStops := stop :: s.timerStops }

/-- The call of `spoofingEnd` on the main thread. -/
def timeoutEnd (timer : Timer) (s : CustomVpnService) : CustomVpnService :=
  { s with ending := s.ending.erase timer, timerEnds := ⟨timer.session, s.vpnInterface⟩ :: s.timerEnds }

/-- `checkIfAllCompleted` with both results: the service is asked to stop, which is an event of its own. -/
def checkIfAllCompleted (s : CustomVpnService) : CustomVpnService := { s with isCapturing := false, completed := true }

end CustomVpnService

/-! ## Events -/

inductive VpnEvent
  /-- `onStartCommand`, and whether an interface is established. -/
  | start (established : Bool)
  /-- `onStartCommand` with `ACTION_VPN_STOP`. -/
  | stop
  /-- The first posted capture start that is due. -/
  | captureStart
  | timeout (timer : Timer)
  | timeoutStop (e : ExpiredTimer)
  | timeoutEnd (timer : Timer)
  /-- A packet completes the detection; the job that analyses it may be cancelled already. -/
  | completion
  | elapse (ms : Nat)
  deriving DecidableEq, Repr

namespace CustomVpnService

def handle (s : CustomVpnService) : VpnEvent → Option CustomVpnService
  | .start established => some (s.startVpnSafely established)
  | .stop => some s.stopTimer.stopVpn
  | .captureStart =>
      match s.captureStarts with
      | [] => none
      | due :: later =>
          if due ≤ s.now then some { s with captureStarts := later }.startPacketCapture else none
  | .timeout timer => if timer ∈ s.timers ∧ timer.deadline ≤ s.now then some (s.timeout timer) else none
  | .timeoutStop e => if e ∈ s.expired then some (s.timeoutStop e) else none
  | .timeoutEnd timer => if timer ∈ s.ending then some (s.timeoutEnd timer) else none
  | .completion => some s.checkIfAllCompleted
  | .elapse ms => some { s with now := s.now + ms }

end CustomVpnService

def customVpnService : Machine CustomVpnService VpnEvent where
  init := {}
  step := CustomVpnService.handle

end AllInSafe.Detection
