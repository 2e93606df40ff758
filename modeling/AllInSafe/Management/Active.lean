import Mathlib.Logic.Function.Basic
import AllInSafe.Library.Runs

/-!
# The active management threads

The static list `active` of `OpenVpnManagementThread`, its `run` and `stopOpenVPN`. An exception that no thread catches
ends the process with the list.
-/

namespace AllInSafe.Management
open AllInSafe.Library

/-- Where a thread is in `run`. -/
inductive RunState
  | created
  /-- In `mServerSocket.accept()`. -/
  | accepting
  /-- In the loop over `instream.read`. -/
  | reading
  | ended
  deriving DecidableEq, Repr

inductive LocalSocket
  | null
  | connected
  | closed
  deriving DecidableEq, Repr

structure ManagementThread where
  run : RunState := .created
  mSocket : LocalSocket := .null
  deriving DecidableEq, Repr

/-- A call of `stopOpenVPN`: what it has returned, and the threads that it has written to. -/
structure StopCall where
  result : Bool
  written : List Nat
  deriving DecidableEq, Repr

structure ManagementThreads where
  thread : Nat → ManagementThread := fun _ => {}
  active : List Nat := []
  stops : List StopCall := []

namespace ManagementThreads

def setThread (i : Nat) (t : ManagementThread) (s : ManagementThreads) : ManagementThreads :=
  { s with thread := Function.update s.thread i t }

/-! ## run -/

def enter (i : Nat) (s : ManagementThreads) : ManagementThreads :=
  { s.setThread i { s.thread i with run := .accepting } with active := s.active ++ [i] }

def accepted (i : Nat) (s : ManagementThreads) : ManagementThreads := s.setThread i ⟨.reading, .connected⟩

/-- The return inside of the loop. -/
def returned (i : Nat) (s : ManagementThreads) : ManagementThreads := s.setThread i { s.thread i with run := .ended }

/-- An `IOException` is caught, and the end of `run` is reached. -/
def caught (i : Nat) (s : ManagementThreads) : ManagementThreads :=
  { s.returned i with active := s.active.erase i }

/-! ## stopOpenVPN -/

/-- Whether the command is written; `broken` are the connections on which a write fails. -/
def managmentCommand (broken : List Nat) (i : Nat) (s : ManagementThreads) : Bool :=
  (s.thread i).mSocket = .connected && i ∉ broken

def closeSocket (i : Nat) (s : ManagementThreads) : ManagementThreads :=
  match (s.thread i).mSocket with
  | .null => s
  | _ => s.setThread i { s.thread i with mSocket := .closed }

/-- The loop, with the result so far and the threads that were written to. -/
def stopLoop (broken : List Nat) : List Nat → Bool → List Nat → ManagementThreads → StopCall × ManagementThreads
  | [], sendCMD, written, s => (⟨sendCMD, written⟩, s)
  | mt :: rest, _, written, s =>
      let sendCMD := s.managmentCommand broken mt
      stopLoop broken rest sendCMD (if sendCMD then written ++ [mt] else written) (s.closeSocket mt)

def stopOpenVPN (broken : List Nat) (s : ManagementThreads) : ManagementThreads :=
  let loop := stopLoop broken s.active false [] s
  { loop.2 with stops := loop.1 :: loop.2.stops }

end ManagementThreads

/-! ## Events -/

inductive ThreadEvent
  | start (i : Nat)
  /-- The OpenVPN process connects. -/
  | connect (i : Nat)
  | acceptFails (i : Nat)
  /-- The OpenVPN process has closed its socket: `read` returns -1. -/
  | endOfStream (i : Nat)
  | ioException (i : Nat)
  | stopVPN (broken : List Nat)
  deriving DecidableEq, Repr

namespace ManagementThreads

def handle (s : ManagementThreads) : ThreadEvent → Option ManagementThreads
  | .start i => if (s.thread i).run = .created then some (s.enter i) else none
  | .connect i => if (s.thread i).run = .accepting then some (s.accepted i) else none
  | .acceptFails i => if (s.thread i).run = .accepting then some (s.caught i) else none
  | .endOfStream i => if (s.thread i).run = .reading then some (s.returned i) else none
  | .ioException i => if (s.thread i).run = .reading then some (s.caught i) else none
  | .stopVPN broken => some (s.stopOpenVPN broken)

end ManagementThreads

def managementThreads : Machine ManagementThreads ThreadEvent where
  init := {}
  step := ManagementThreads.handle

end AllInSafe.Management
