import AllInSafe.Library.Runs
import AllInSafe.Library.Text
import Mathlib

/-!
# The protection mode for Bluetooth

`BluetoothMainActivity`: every activity has its own sets of trusted and of blocked addresses, loads them when it starts
and saves both when it adds to one. Its receiver is registered until the activity is destroyed.
-/

namespace AllInSafe.Bluetooth
open AllInSafe.Library

/-- The addresses of the trusted and of the blocked devices, in an activity or in the preferences. -/
structure DeviceLists where
  trustedDevices : Finset Str := ∅
  blockedDevices : Finset Str := ∅
  deriving DecidableEq

def BOND_NONE : Int := 10
def BOND_BONDING : Int := 11
def BOND_BONDED : Int := 12

/-- A broadcast that the receiver is registered for, with its extras. A missing state is `-1`. -/
inductive Intent
  | pairingRequest
  | aclConnected (dev : Option Str)
  | aclDisconnected (dev : Option Str)
  | bondStateChanged (dev : Option Str) (prev curr : Int)
  deriving DecidableEq, Repr

/-! ## BluetoothMainActivity -/

/-- The sets of an activity, and the preferences. -/
structure MainActivity where
  lists : DeviceLists := {}
  prefs : DeviceLists
  deriving DecidableEq

namespace MainActivity

/-- The preferences copy the sets. -/
def saveDeviceLists (a : MainActivity) : MainActivity := { a with prefs := a.lists }

def addTrustedDevice (address : Str) (a : MainActivity) : MainActivity :=
  if address ∈ a.lists.trustedDevices then a
  else { a with lists.trustedDevices := insert address a.lists.trustedDevices }.saveDeviceLists

def addBlockedDevice (address : Str) (a : MainActivity) : MainActivity :=
  if address ∈ a.lists.blockedDevices then a
  else { a with lists.blockedDevices := insert address a.lists.blockedDevices }.saveDeviceLists

def handleBondStateChanged (dev : Option Str) (prev curr : Int) (a : MainActivity) : MainActivity :=
  match dev with
  | none => a
  | some address =>
      if prev = BOND_BONDING ∧ curr = BOND_NONE then a.addBlockedDevice address
      else if curr = BOND_BONDED then a.addTrustedDevice address
      else a

def onReceive (intent : Intent) (a : MainActivity) : MainActivity :=
  match intent with
  | .aclConnected (some address) => a.addTrustedDevice address
  | .bondStateChanged dev prev curr => a.handleBondStateChanged dev prev curr
  | .pairingRequest | .aclConnected none | .aclDisconnected _ => a

/-- The trusted addresses are those that are bonded now. Nothing is saved. -/
def loadDeviceLists (bondedDevices : Finset Str) (a : MainActivity) : MainActivity :=
  { a with
    lists := {
      trustedDevices := a.prefs.trustedDevices ∩ bondedDevices
      blockedDevices := a.prefs.blockedDevices } }

end MainActivity

/-! ## The phone -/

/-- The preferences, and the activities in the order in which their receivers were registered. -/
structure Phone where
  prefs : DeviceLists
  activities : List DeviceLists := []
  deriving DecidableEq

/-- The receivers get a broadcast one after the other. -/
def deliver (intent : Intent) (prefs : DeviceLists) : List DeviceLists → DeviceLists × List DeviceLists
  | [] => (prefs, [])
  | lists :: rest =>
      let a := MainActivity.onReceive intent ⟨lists, prefs⟩
      let (prefs, rest) := deliver intent a.prefs rest
      (prefs, a.lists :: rest)

inductive Event
  /-- An activity gets its permissions and initializes, while these devices are bonded. -/
  | start (bondedDevices : Finset Str)
  /-- An activity is destroyed. -/
  | destroy (i : Nat)
  | broadcast (intent : Intent)
  deriving DecidableEq

def Phone.step (s : Phone) : Event → Option Phone
  | .start bondedDevices =>
      let a := MainActivity.loadDeviceLists bondedDevices { prefs := s.prefs }
      some { s with activities := s.activities ++ [a.lists] }
  | .destroy i => if i < s.activities.length then some { s with activities := s.activities.eraseIdx i } else none
  | .broadcast intent =>
      let (prefs, activities) := deliver intent s.prefs s.activities
      some { prefs := prefs, activities := activities }

/-- The phone from its stored sets on. -/
def phone (stored : DeviceLists) : Machine Phone Event := ⟨{ prefs := stored }, Phone.step⟩

end AllInSafe.Bluetooth
