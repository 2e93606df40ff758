import AllInSafe.Library.Runs
import AllInSafe.Library.Text
import Mathlib

/-!
# The screen of the trusted devices

`Ac2_02_bluetooth_trust_device` with the adapter of its list. A handler of the main thread is one event here; a
deletion suspends while its device is unpaired on another thread, and resumes with the result.
-/

namespace AllInSafe.Bluetooth.TrustDevice
open AllInSafe.Library

inductive DeviceType
  | TRUSTED
  | BLOCKED
  deriving DecidableEq, Repr

structure Device where
  name : Str
  address : Str
  type : DeviceType
  deriving DecidableEq, Repr

structure BluetoothDevice where
  address : Str
  name : Option Str
  deriving DecidableEq, Repr

/-- The bonded devices of the system, each under its own address. -/
structure BondedDevices where
  devices : List BluetoothDevice
  nodup : (devices.map BluetoothDevice.address).Nodup
  deriving DecidableEq

namespace BondedDevices

def addresses (b : BondedDevices) : Finset Str := (b.devices.map BluetoothDevice.address).toFinset

def find (address : Str) (b : BondedDevices) : Option BluetoothDevice :=
  b.devices.find? fun it => it.address = address

end BondedDevices

/-- A deletion of a trusted device that has not resumed, with the result of its unpairing once there is one. -/
structure Deletion where
  device : Device
  position : Int
  unpairSuccess : Option Bool := none
  deriving DecidableEq, Repr

/-- `RecyclerView.NO_POSITION`, the position of a row between a change of the data and the next layout. -/
def NO_POSITION : Int := -1

/-- The screen with the stored sets of addresses and the bonded devices. The rows are those that are laid out. -/
structure Screen where
  bondedDevices : BondedDevices
  trusted : Finset Str := ∅
  blocked : Finset Str := ∅
  trustedDeviceList : List Device := []
  blockedDeviceList : List Device := []
  currentDisplayType : DeviceType := .TRUSTED
  devices : List Device := []
  rows : List Device := []
  laidOut : Bool := true
  /-- Posted and not yet run updates of the adapter. -/
  posts : Nat := 0
  deletions : List Deletion := []
  crashed : Bool := false
  deriving DecidableEq

/-! ## The handlers -/

/-- The list without the element at a position, where the position is below its size. There is no element at a
negative position, and `none` is the exception. -/
def removeAt (position : Int) (list : List Device) : Option (List Device) :=
  if position < list.length then
    if 0 ≤ position then some (list.eraseIdx position.toNat) else none
  else some list

namespace Screen

def updateData (newDevices : List Device) (s : Screen) : Screen := { s with devices := newDevices, laidOut := false }

/-- The device is unpaired when it is bonded; `removeBond` is what that returns, `false` where it throws. -/
def unpairDevice (address : Str) (removeBond : Bool) (s : Screen) : Bool :=
  match s.bondedDevices.find address with
  | some _ => removeBond
  | none => true

def displayed (s : Screen) : List Device :=
  match s.currentDisplayType with
  | .TRUSTED => s.trustedDeviceList
  | .BLOCKED => s.blockedDeviceList

def dummyBlockedDevices : List Device :=
  [⟨"의심스러운 마우스", "AA:11:BB:22:CC:33", .BLOCKED⟩, ⟨"악성 키보드", "DE:AD:BE:EF:00:00", .BLOCKED⟩,
    ⟨"알 수 없는 장치", "00:00:00:00:00:00", .BLOCKED⟩]

/-- The stored sets are read in the orders of their iterators. -/
def loadDeviceLists (trustedAddresses blockedAddresses : List Str) (s : Screen) : Screen :=
  { s with
    trustedDeviceList := trustedAddresses.filterMap fun addr =>
      (s.bondedDevices.find addr).map fun it => ⟨it.name.getD "알 수 없는 기기", it.address, .TRUSTED⟩
    blockedDeviceList := (blockedAddresses.map fun addr => ⟨"차단된 기기", addr, .BLOCKED⟩) ++ dummyBlockedDevices
    posts := s.posts + 1 }

def syncTrusted (s : Screen) : Finset Str :=
  let bondedNow := s.bondedDevices.addresses
  let unbondedExternally := s.trusted \ bondedNow
  let storedTrusted := if unbondedExternally.Nonempty then s.trusted \ unbondedExternally else s.trusted
  let newOnes := bondedNow \ storedTrusted
  if newOnes.Nonempty then storedTrusted ∪ newOnes else storedTrusted

def syncAndLoadDeviceLists (trustedAddresses blockedAddresses : List Str) (s : Screen) : Screen :=
  { s with trusted := s.syncTrusted }.loadDeviceLists trustedAddresses blockedAddresses

/-- The trusted branch only starts the coroutine. -/
def handleDeviceDeletion (device : Device) (position : Int) (s : Screen) : Screen :=
  match device.type with
  | .TRUSTED => { s with deletions := s.deletions ++ [{ device := device, position := position }] }
  | .BLOCKED =>
      let s := { s with blocked := s.blocked.erase device.address }
      match removeAt position s.blockedDeviceList with
      | some list => { s with blockedDeviceList := list }.updateData list
      | none => { s with crashed := true }

/-- What follows the unpairing. -/
def resumeDeletion (d : Deletion) (unpairSuccess : Bool) (s : Screen) : Screen :=
  if unpairSuccess then
    let s := { s with trusted := s.trusted.erase d.device.address }
    match removeAt d.position s.trustedDeviceList with
    | some list => { s with trustedDeviceList := list }.updateData list
    | none => { s with crashed := true }
  else s

end Screen

/-! ## Events -/

inductive Event
  /-- The delete button of a row. -/
  | tap (i : Nat)
  /-- The unpairing of a deletion, and what `removeBond` returns. -/
  | unpair (i : Nat) (removeBond : Bool)
  /-- A deletion resumes on the main thread. -/
  | resume (i : Nat)
  /-- The bonded devices have changed, or the screen is resumed: the lists are loaded again. -/
  | reload (bondedDevices : BondedDevices) (trustedAddresses blockedAddresses : List Str)
  /-- A posted update of the adapter runs. -/
  | post
  | layout
  | selectTab (type : DeviceType)
  deriving DecidableEq

/-- The list names every address of the set once. -/
def Iterates (order : List Str) (set : Finset Str) : Prop := order.Nodup ∧ order.toFinset = set

instance (order : List Str) (set : Finset Str) : Decidable (Iterates order set) :=
  inferInstanceAs (Decidable (_ ∧ _))

/-- What an event does; `none` where nothing delivers it. -/
def Screen.handle (s : Screen) : Event → Option Screen
  | .tap i => s.rows[i]?.map fun device => s.handleDeviceDeletion device (if s.laidOut then i else NO_POSITION)
  | .unpair i removeBond =>
      s.deletions[i]?.bind fun d =>
        match d.unpairSuccess with
        | none =>
            let d := { d with unpairSuccess := some (s.unpairDevice d.device.address removeBond) }
            some { s with deletions := s.deletions.set i d }
        | some _ => none
  | .resume i =>
      s.deletions[i]?.bind fun d => d.unpairSuccess.map fun unpairSuccess =>
        { s with deletions := s.deletions.eraseIdx i }.resumeDeletion d unpairSuccess
  | .reload bondedDevices trustedAddresses blockedAddresses =>
      let s := { s with bondedDevices := bondedDevices }
      if Iterates trustedAddresses s.syncTrusted ∧ Iterates blockedAddresses s.blocked then
        some (s.syncAndLoadDeviceLists trustedAddresses blockedAddresses)
      else none
  | .post => if s.posts = 0 then none else some ({ s with posts := s.posts - 1 }.updateData s.displayed)
  | .layout => some { s with rows := s.devices, laidOut := true }
  | .selectTab type =>
      let s := { s with currentDisplayType := type }
      some (s.updateData s.displayed)

/-- A crashed app has no more events. -/
def Screen.step (s : Screen) (e : Event) : Option Screen := if s.crashed then none else s.handle e

/-- The screen from some state on. -/
def trustScreen (start : Screen) : Machine Screen Event := ⟨start, Screen.step⟩

end AllInSafe.Bluetooth.TrustDevice
