import AllInSafe.Config.Numbers
import AllInSafe.Library.Runs

/-!
# Versions of a profile

One profile in the memory of the UI process, in that of the `:openvpn` process and in the storage: `saveProfile`,
`get` and `notifyProfileVersionChanged` of `ProfileManager`, and the messages that `StatusListener` and
`OpenVPNStatusService` send between the two processes once the one is bound to the other.
-/

namespace AllInSafe.Versions
open AllInSafe.Library

inductive Process
  | ui
  | openvpn
  deriving DecidableEq, Repr

def Process.other : Process → Process
  | .ui => .openvpn
  | .openvpn => .ui

@[simp] theorem Process.other_ne {p : Process} : p.other ≠ p := by cases p <;> decide

variable {α : Type}

structure VpnProfile (α : Type) where
  mVersion : Int
  content : α
  deriving DecidableEq, Repr

/-- A call of `get` that waits for a version, and how often it may still load the profile. -/
structure Get where
  version : Int
  tries : Nat
  deriving DecidableEq, Repr

structure Memory (α : Type) where
  /-- The object in `profiles`. -/
  profile : VpnProfile α
  /-- The objects of earlier lists, which an activity or a service may still hold. -/
  kept : List (VpnProfile α) := []
  /-- The versions of the messages for this process, in the order of their delivery. -/
  inbox : List Int := []
  /-- The message that is handled. -/
  handling : Option Get := none
  deriving DecidableEq, Repr

structure Phone (α : Type) where
  memory : Process → Memory α
  storage : VpnProfile α
  /-- What was saved, the last one first. -/
  saved : List (VpnProfile α) := []
  /-- `OpenVPNStatusService` is created and listens in its process. -/
  created : Bool := false
  /-- The versions in the messages of its handler. -/
  posted : List Int := []
  /-- The `serviceStatus` of the UI process is not `null`. -/
  serviceStatus : Bool := false
  /-- The callback of the UI process is registered at the service. -/
  registered : Bool := false
  /-- `StatusListener` listens in the UI process. -/
  listening : Bool := false

/-- The object in `profiles`, or one that is still held. -/
def Memory.object (m : Memory α) : Option Nat → Option (VpnProfile α)
  | none => some m.profile
  | some i => m.kept[i]?

def Memory.setObject (m : Memory α) (profile : VpnProfile α) : Option Nat → Memory α
  | none => { m with profile }
  | some i => { m with kept := m.kept.set i profile }

namespace Phone

def setMemory (p : Process) (f : Memory α → Memory α) (s : Phone α) : Phone α :=
  { s with memory := Function.update s.memory p (f (s.memory p)) }

/-- `StatusListener` sends what was changed in its own process, `OpenVPNStatusService` posts every notification. -/
def notifyProfileVersionChanged (p : Process) (version : Int) (changedInThisProcess : Bool) (s : Phone α) : Phone α :=
  match p with
  | .ui =>
      if s.listening && (changedInThisProcess && s.serviceStatus) then
        s.setMemory .openvpn fun m => { m with inbox := m.inbox ++ [version] }
      else s
  | .openvpn => if s.created then { s with posted := s.posted ++ [version] } else s

/-- The content is what the process has made of the object that it passes; where the encryption fails, `saveProfile`
starts again and counts the version twice. -/
def saveProfile (p : Process) (held : Option Nat) (content : α) (encryptionFails : Bool) (s : Phone α) :
    Option (Phone α) :=
  ((s.memory p).object held).map fun passed =>
    let mVersion := Config.wrap 32 (passed.mVersion + if encryptionFails then 2 else 1)
    let profile : VpnProfile α := ⟨mVersion, content⟩
    { s.setMemory p fun m => m.setObject profile held with
        storage := profile, saved := profile :: s.saved }.notifyProfileVersionChanged p mVersion true

def loadVPNList (p : Process) (s : Phone α) : Phone α :=
  s.setMemory p fun m => { m with profile := s.storage, kept := m.profile :: m.kept }

/-- The next message is taken. -/
def receive (p : Process) (s : Phone α) : Option (Phone α) :=
  match (s.memory p).handling, (s.memory p).inbox with
  | none, version :: inbox =>
      some (s.setMemory p fun m => { m with inbox := inbox, handling := some ⟨version, 100⟩ })
  | _, _ => none

/-- The loop of `get` once more, or what follows it. -/
def tryGet (p : Process) (g : Get) (s : Phone α) : Phone α :=
  if (s.memory p).profile.mVersion < g.version then
    match g.tries with
    | 0 => s.setMemory p fun m => { m with handling := none }
    | tries + 1 => (s.loadVPNList p).setMemory p fun m => { m with handling := some ⟨g.version, tries⟩ }
  else (s.setMemory p fun m => { m with handling := none }).notifyProfileVersionChanged p g.version false

/-- The handler of the service broadcasts to the callbacks that are registered. -/
def handleMessage (s : Phone α) : Option (Phone α) :=
  match s.posted with
  | [] => none
  | version :: posted =>
      let s := { s with posted }
      some (if s.registered then s.setMemory .ui fun m => { m with inbox := m.inbox ++ [version] } else s)

end Phone

inductive Event (α : Type)
  | saveProfile (p : Process) (held : Option Nat) (content : α) (encryptionFails : Bool)
  | handleMessage
  | receive (p : Process)
  | tryGet (p : Process)
  /-- The list is loaded for another reason. -/
  | loadVPNList (p : Process)
  /-- The service is created. -/
  | onCreate
  /-- The three steps of the UI process that bind it to the service. -/
  | onServiceConnected
  | registerStatusCallback
  | addProfileStateListener
  deriving DecidableEq, Repr

/-- Both processes have loaded what is in the storage, and the UI process is not bound yet. -/
def phone (start : VpnProfile α) : Machine (Phone α) (Event α) where
  init := { memory := fun _ => { profile := start }, storage := start }
  step
    | s, .saveProfile p held content encryptionFails => s.saveProfile p held content encryptionFails
    | s, .handleMessage => s.handleMessage
    | s, .receive p => s.receive p
    | s, .tryGet p => (s.memory p).handling.map fun g => s.tryGet p g
    | s, .loadVPNList p => some (s.loadVPNList p)
    | s, .onCreate => some { s with created := true }
    | s, .onServiceConnected => if s.created then some { s with serviceStatus := true } else none
    | s, .registerStatusCallback => if s.serviceStatus then some { s with registered := true } else none
    | s, .addProfileStateListener => if s.registered then some { s with listening := true } else none

end AllInSafe.Versions
