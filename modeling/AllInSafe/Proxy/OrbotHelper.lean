import Mathlib.Logic.Function.Basic
import AllInSafe.Library.Runs
import AllInSafe.Proxy.Model

/-!
# The wait for Orbot

`OrbotHelper`, and what `OpenVpnManagementThread` does about a query for an Orbot connection. The main thread runs the
timeouts, each of them as a whole, and the receiver, whose loops over the callbacks take no lock: between two of their
iterations a management thread may handle its query, in two parts, or lose its OpenVPN.
-/

namespace AllInSafe.Proxy
open AllInSafe.Library AllInSafe.Config

inductive OrbotException
  | concurrentModification
  | illegalArgument
  | nullPointer
  deriving DecidableEq, Repr

/-- A proxy command, and whether OpenVPN was waiting for one. -/
structure ProxyCommand where
  session : Nat
  text : Str
  answersQuery : Bool
  deriving DecidableEq, Repr

/-- A management thread with its OpenVPN. -/
structure OrbotSession where
  /-- The management socket is open. -/
  connected : Bool := true
  /-- OpenVPN waits for the answer to its last query. -/
  queryOpen : Bool := false
  /-- The `orbotStatusTimeOutRunnable`s that are posted and have not run. -/
  timeouts : Nat := 0
  /-- The thread has posted a timeout and not yet added its callback. -/
  adding : Bool := false
  deriving DecidableEq, Repr

/-- The extras of a status broadcast. -/
structure StatusExtras where
  status : Option Str
  socksHost : Option Str := none
  socksPort : Option Int := none
  deriving DecidableEq, Repr

/-- A status broadcast of Orbot, or of another app. -/
structure StatusIntent where
  extras : Option StatusExtras
  deriving DecidableEq, Repr

def StatusIntent.status (intent : StatusIntent) : Option Str := intent.extras.bind StatusExtras.status

def STATUS_ON : Str := "ON".toList

def STATUS_STARTS_DISABLED : Str := "STARTS_DISABLED".toList

def SOCKS_PROXY_PORT_DEFAULT : Int := 9050

/-- What the receiver's loops call. -/
inductive StatusCall
  | onStatus
  | onOrbotReady
  | onDisabled
  deriving DecidableEq, Repr

/-- A loop of the receiver, with its iterator. -/
structure ReceiverLoop where
  intent : StatusIntent
  call : StatusCall
  /-- The callbacks that the iterator has not returned. -/
  rest : List Nat
  expectedModCount : Nat
  deriving DecidableEq, Repr

structure Orbot where
  session : Nat → OrbotSession := fun _ => {}
  /-- The set of callbacks, each by its session. -/
  statusCallbacks : List Nat := []
  modCount : Nat := 0
  /-- `orbotStatusReceiver` is registered. -/
  registered : Bool := false
  /-- The loop that the main thread is in. -/
  loop : Option ReceiverLoop := none
  /-- The written proxy commands, the last one first. -/
  commands : List ProxyCommand := []
  /-- The set was modified while a loop iterated over it. -/
  modifiedInLoop : Bool := false
  /-- What has ended the process. -/
  exception : Option OrbotException := none

namespace Orbot

def setSession (i : Nat) (f : OrbotSession → OrbotSession) (s : Orbot) : Orbot :=
  { s with session := Function.update s.session i (f (s.session i)) }

/-! ## OrbotHelper -/

/-- Android throws for a receiver that is not registered. -/
def unregisterReceiver (s : Orbot) : Orbot :=
  if s.registered then { s with registered := false } else { s with exception := some .illegalArgument }

def setCallbacks (statusCallbacks : List Nat) (s : Orbot) : Orbot :=
  { s with statusCallbacks, modCount := s.modCount + 1, modifiedInLoop := s.modifiedInLoop || s.loop.isSome }

/-- `HashSet.add`. -/
def add (cb : Nat) (s : Orbot) : Orbot :=
  if cb ∈ s.statusCallbacks then s else s.setCallbacks (cb :: s.statusCallbacks)

/-- `HashSet.remove`. -/
def remove (cb : Nat) (s : Orbot) : Orbot :=
  if cb ∈ s.statusCallbacks then s.setCallbacks (s.statusCallbacks.erase cb) else s

def addStatusCallback (cb : Nat) (s : Orbot) : Orbot :=
  (if s.statusCallbacks.length = 0 then { s with registered := true } else s).add cb

def removeStatusCallback (cb : Nat) (s : Orbot) : Orbot :=
  if (s.remove cb).statusCallbacks.length = 0 then (s.remove cb).unregisterReceiver else s.remove cb

/-! ## OpenVpnManagementThread -/

def sendProxyCMD (i : Nat) (proxyname : Str) (proxyport : Int) (s : Orbot) : Orbot :=
  if (s.session i).connected then
    let text := Proxy.sendProxyCMD ⟨.SOCKS5, some proxyname, some (toString proxyport).toList, false⟩
    let s' := s.setSession i fun session => { session with queryOpen := false }
    { s' with commands := ⟨i, text, (s.session i).queryOpen⟩ :: s.commands }
  else s

/-- The `orbotStatusTimeOutRunnable` of a session. -/
def orbotStatusTimeOut (i : Nat) (s : Orbot) : Orbot :=
  let s := s.setSession i fun session => { session with timeouts := session.timeouts - 1 }
  (s.sendProxyCMD i "127.0.0.1".toList SOCKS_PROXY_PORT_DEFAULT).removeStatusCallback i

def onOrbotReady (socksHost : Str) (socksPort : Int) (i : Nat) (s : Orbot) : Orbot :=
  let s := s.setSession i fun session => { session with timeouts := 0 }
  (s.sendProxyCMD i socksHost socksPort).removeStatusCallback i

/-- It logs each of the extras. -/
def onStatus (intent : StatusIntent) (s : Orbot) : Orbot :=
  if intent.extras.isNone then { s with exception := some .nullPointer } else s

/-! ## The receiver -/

/-- A loop starts, over the callbacks in the order of the set. -/
def iterate (intent : StatusIntent) (call : StatusCall) (order : List Nat) (s : Orbot) : Orbot :=
  { s with loop := some ⟨intent, call, order, s.modCount⟩ }

def onReceive (intent : StatusIntent) (order : List Nat) (s : Orbot) : Orbot :=
  if s.registered then s.iterate intent .onStatus order else s

/-- The body of a loop. `onDisabled` only logs. -/
def callback (loop : ReceiverLoop) (cb : Nat) (s : Orbot) : Orbot :=
  match loop.call with
  | .onStatus => s.onStatus loop.intent
  | .onDisabled => s
  | .onOrbotReady =>
      let socksPort := (loop.intent.extras.bind StatusExtras.socksPort).getD SOCKS_PROXY_PORT_DEFAULT
      let socksHost := match loop.intent.extras.bind StatusExtras.socksHost with
        | none => "127.0.0.1".toList
        | some [] => "127.0.0.1".toList
        | some socksHost => socksHost
      s.onOrbotReady socksHost socksPort cb

/-- The iterator compares the set's count of modifications with the one that it has started from. -/
def next (loop : ReceiverLoop) (cb : Nat) (rest : List Nat) (s : Orbot) : Orbot :=
  if s.modCount ≠ loop.expectedModCount then { s with exception := some .concurrentModification }
  else { s with loop := some { loop with rest } }.callback loop cb

/-- A loop has ended: there is a second one for two of the statuses. -/
def afterLoop (loop : ReceiverLoop) (order : List Nat) (s : Orbot) : Orbot :=
  if loop.call ≠ .onStatus then { s with loop := none }
  else if loop.intent.status = some STATUS_ON then s.iterate loop.intent .onOrbotReady order
  else if loop.intent.status = some STATUS_STARTS_DISABLED then s.iterate loop.intent .onDisabled order
  else { s with loop := none }

end Orbot

/-! ## Events -/

inductive OrbotEvent
  /-- `processProxyCMD` for an Orbot connection, up to the posted timeout. -/
  | query (session : Nat)
  /-- The rest of it. -/
  | addStatusCallback (session : Nat)
  /-- A status arrives on the main thread, with the order in which the first loop iterates the set. -/
  | broadcast (intent : StatusIntent) (order : List Nat)
  /-- The loop asks its iterator for the next callback and calls it. -/
  | next
  /-- The loop has no further callback, and the set is iterated in this order where there is a second loop. -/
  | afterLoop (order : List Nat)
  /-- A posted timeout expires on the main thread. -/
  | timeout (session : Nat)
  /-- OpenVPN restarts its connection and gives a query up. -/
  | restarts (session : Nat)
  /-- The management socket is closed. -/
  | closed (session : Nat)
  deriving DecidableEq, Repr

namespace Orbot

def handle (s : Orbot) : OrbotEvent → Option Orbot
  | .query i =>
      if (s.session i).connected && !(s.session i).adding then
        some (s.setSession i fun session =>
          { session with queryOpen := true, timeouts := session.timeouts + 1, adding := true })
      else none
  | .addStatusCallback i =>
      if (s.session i).adding then
        some ((s.addStatusCallback i).setSession i fun session => { session with adding := false })
      else none
  | .broadcast intent order =>
      if s.loop = none ∧ order.isPerm s.statusCallbacks then some (s.onReceive intent order) else none
  | .next =>
      match s.loop with
      | some loop =>
          match loop.rest with
          | cb :: rest => some (s.next loop cb rest)
          | [] => none
      | none => none
  | .afterLoop order =>
      match s.loop with
      | some loop =>
          if loop.rest = [] ∧ order.isPerm s.statusCallbacks then some (s.afterLoop loop order) else none
      | none => none
  | .timeout i => if s.loop = none ∧ (s.session i).timeouts > 0 then some (s.orbotStatusTimeOut i) else none
  | .restarts i => some (s.setSession i fun session => { session with queryOpen := false })
  | .closed i => some (s.setSession i fun session => { session with connected := false, queryOpen := false })

end Orbot

def orbot : Machine Orbot OrbotEvent where
  init := {}
  step s e := if s.exception.isSome then none else s.handle e

end AllInSafe.Proxy
