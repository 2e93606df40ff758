import AllInSafe.Library.Runs

/-!
# Replacing a running session

`startOpenVPN` of `OpenVPNService` runs on the command thread, the end of a session on the thread of its OpenVPN
process, and the registration of its receiver on the main thread. One step is one statement. A session stands for
its profile, its process thread and its receiver; the sessions are numbered from 1.
-/

namespace AllInSafe.Replace
open AllInSafe.Library

/-- The statements of `endVpnService`, in their order. -/
inductive EndStep
  | processThread
  | unregister
  | deviceStateReceiver
  | disconnected
  | openVPNThread
  | stop
  deriving DecidableEq, Repr

/-- The statement that follows. -/
def EndStep.next : EndStep → Option EndStep
  | .processThread => some .unregister
  | .unregister => some .deviceStateReceiver
  | .deviceStateReceiver => some .disconnected
  | .disconnected => some .openVPNThread
  | .openVPNThread => some .stop
  | .stop => none

/-- The next statement of `startOpenVPN` for the last session. -/
inductive Setup
  | idle
  | setConnectedVpnProfile
  | setStarting
  | setReplaceConnection
  | forceStopOpenVpnProcess
  | clearStarting
  | openManagementInterface
  | startProcessThread
  | writeConfigFileOutput
  | postReceiver
  | endVpnService (e : EndStep)
  deriving DecidableEq, Repr

/-- Where the `run` of an `OpenVPNThread` stands. -/
inductive Thread
  | absent
  | running
  | ending (e : EndStep)
  | exited
  deriving DecidableEq, Repr

/-- The next statement of the runnable that registers a receiver. -/
inductive GuiStep
  | unregisterOld
  | register
  | assign
  deriving DecidableEq, Repr

/-- A runnable on the main thread, for the receiver of the session `new`. -/
structure Posted where
  oldDeviceStateReceiver : Option Nat
  new : Nat
  next : GuiStep := .unregisterOld
  deriving DecidableEq, Repr

structure Service where
  mNotificationAlwaysVisible : Bool
  mStarting : Bool := false
  mManagement : Option Nat := none
  mOpenVPNThread : Option Nat := none
  mProcessThread : Option Nat := none
  mDeviceStateReceiver : Option Nat := none
  lastConnectedProfile : Option Nat := none
  /-- The receivers that are registered with the system. -/
  registered : List Nat := []
  /-- The last session that was started, 0 before the first one. -/
  last : Nat := 0
  setup : Setup := .idle
  /-- The set-up of the last session has failed. -/
  failed : Bool := false
  threads : Nat → Thread := fun _ => .absent
  mNoProcessExitStatus : Nat → Bool := fun _ => false
  posted : List Posted := []
  /-- The calls of `stopSelf`, each with the session that was alive at that moment. -/
  stopped : List (Option Nat) := []

namespace Service

def setThread (a : Nat) (t : Thread) (s : Service) : Service :=
  { s with threads := fun n => if n = a then t else s.threads n }

def unregisterDeviceStateReceiver (r : Option Nat) (s : Service) : Service :=
  if s.mDeviceStateReceiver ≠ none then { s with registered := s.registered.filter (some · ≠ r) } else s

/-- The last session has begun to end by itself. -/
def ended (s : Service) : Bool :=
  s.failed || match s.threads s.last with
    | .absent | .running => false
    | .ending _ | .exited => true

/-- One statement of `endVpnService`. -/
def endVpnService (s : Service) : EndStep → Service
  | .processThread => { s with mProcessThread := none }
  | .unregister => s.unregisterDeviceStateReceiver s.mDeviceStateReceiver
  | .deviceStateReceiver => { s with mDeviceStateReceiver := none }
  | .disconnected => { s with lastConnectedProfile := none }
  | .openVPNThread => { s with mOpenVPNThread := none }
  | .stop =>
      if !s.mStarting && !s.mNotificationAlwaysVisible then
        { s with stopped := s.stopped ++ [if s.ended then none else some s.last] }
      else s

/-- One statement of `startOpenVPN`; `ok` tells whether an operation that may fail succeeds. In between two calls
it is the beginning of the next call, for a profile that replaces the running one. -/
def startOpenVPN (ok : Bool) (s : Service) : Service :=
  match s.setup with
  | .idle => { s with last := s.last + 1, setup := .setConnectedVpnProfile, failed := false }
  | .setConnectedVpnProfile => { s with lastConnectedProfile := some s.last, setup := .setStarting }
  | .setStarting => { s with mStarting := true, setup := .setReplaceConnection }
  | .setReplaceConnection =>
      let s := { s with setup := .forceStopOpenVpnProcess }
      match s.mManagement, s.mOpenVPNThread with
      | some _, some a => { s with mNoProcessExitStatus := fun n => if n = a then true else s.mNoProcessExitStatus n }
      | _, _ => s
  -- The interrupt only makes it likely that the old thread ends.
  | .forceStopOpenVpnProcess => { s with setup := .clearStarting }
  | .clearStarting => { s with mStarting := false, setup := .openManagementInterface }
  | .openManagementInterface =>
      if ok then { s with mManagement := some s.last, setup := .startProcessThread }
      else { s with setup := .endVpnService .processThread, failed := true }
  | .startProcessThread => { s with mProcessThread := some s.last, setup := .writeConfigFileOutput }.setThread s.last .running
  | .writeConfigFileOutput =>
      if ok then { s with setup := .postReceiver } else { s with setup := .endVpnService .processThread, failed := true }
  | .postReceiver =>
      { s with posted := s.posted ++ [⟨s.mDeviceStateReceiver, s.last, .unregisterOld⟩], setup := .idle }
  | .endVpnService e =>
      { s.endVpnService e with
        setup := match e.next with
          | some e' => .endVpnService e'
          | none => .idle }

/-- One statement at the end of the `run` of the thread of the session `a`. -/
def run (a : Nat) (s : Service) : Option Service :=
  match s.threads a with
  | .running => some (s.setThread a (if s.mNoProcessExitStatus a then .exited else .ending .processThread))
  | .ending e =>
      some ((s.endVpnService e).setThread a (match e.next with
        | some e' => .ending e'
        | none => .exited))
  | .absent | .exited => none

/-- One statement of the first runnable that waits on the main thread. -/
def gui (s : Service) : Option Service :=
  match s.posted with
  | [] => none
  | p :: ps =>
      match p.next with
      | .unregisterOld =>
          let t := { s with posted := { p with next := .register } :: ps }
          some (match p.oldDeviceStateReceiver with
            | none => t
            | some r => t.unregisterDeviceStateReceiver (some r))
      | .register => some { s with posted := { p with next := .assign } :: ps, registered := s.registered ++ [p.new] }
      | .assign => some { s with posted := ps, mDeviceStateReceiver := some p.new }

end Service

inductive Event
  | startOpenVPN (ok : Bool)
  | run (a : Nat)
  | gui
  deriving DecidableEq, Repr

def Service.step (s : Service) : Event → Option Service
  | .startOpenVPN ok => some (s.startOpenVPN ok)
  | .run a => s.run a
  | .gui => s.gui

/-- A service from its creation on. -/
def service (mNotificationAlwaysVisible : Bool) : Machine Service Event :=
  ⟨{ mNotificationAlwaysVisible := mNotificationAlwaysVisible }, Service.step⟩

end AllInSafe.Replace
