import AllInSafe.Config.Numbers
import Mathlib

/-!
# The apps that may control the VPN

`ExternalAppDatabase`. The preferences hand out their own set, and its iterator is fail-fast.
-/

namespace AllInSafe.RemoteControl
open AllInSafe.Library

/-- A `HashSet<String>`, in the order of its iterator. -/
structure StringSet where
  elements : List Str
  nodup : elements.Nodup
  modCount : Nat := 0
  deriving Repr

namespace StringSet

def add (s : Str) (set : StringSet) : StringSet :=
  if h : s ∈ set.elements then set
  else { elements := s :: set.elements, nodup := List.nodup_cons.mpr ⟨h, set.nodup⟩, modCount := set.modCount + 1 }

def remove (s : Str) (set : StringSet) : StringSet :=
  if s ∈ set.elements then
    { elements := set.elements.erase s, nodup := set.nodup.erase s, modCount := set.modCount + 1 }
  else set

end StringSet

/-- The preferences `allowed_apps`, `allowed_apps_managed` and `counter`. -/
structure ExternalAppDatabase where
  allowed_apps : StringSet
  allowed_apps_managed : Bool := false
  counter : Int := 0
  deriving Repr

/-- How a permission check ends. -/
inductive Permission
  | granted (appPackage : Str)
  | securityException
  | concurrentModificationException
  deriving DecidableEq, Repr

namespace ExternalAppDatabase

/-- The stored set is the set that is saved: nothing of it is replaced. -/
def saveExtAppList (allowedapps : StringSet) (db : ExternalAppDatabase) : ExternalAppDatabase :=
  { db with allowed_apps := allowedapps, counter := Config.wrap 32 (db.counter + 1) }

def addApp (packagename : Str) (db : ExternalAppDatabase) : ExternalAppDatabase :=
  db.saveExtAppList (db.allowed_apps.add packagename)

def removeApp (packagename : Str) (db : ExternalAppDatabase) : ExternalAppDatabase :=
  db.saveExtAppList (db.allowed_apps.remove packagename)

/-- The loop over what the iterator has left; `installed` gives the UID of an installed package. -/
def checkLoop (installed : Str → Option Nat) (callingUid expectedModCount : Nat) :
    List Str → ExternalAppDatabase → Permission × ExternalAppDatabase
  | [], db => (.securityException, db)
  | appPackage :: rest, db =>
      if db.allowed_apps.modCount ≠ expectedModCount then (.concurrentModificationException, db)
      else
        match installed appPackage with
        | some uid =>
            if callingUid = uid then (.granted appPackage, db)
            else checkLoop installed callingUid expectedModCount rest db
        | none =>
            checkLoop installed callingUid expectedModCount rest
              (if db.allowed_apps_managed then db else db.removeApp appPackage)

def checkOpenVPNPermission (installed : Str → Option Nat) (callingUid : Nat) (db : ExternalAppDatabase) :
    Permission × ExternalAppDatabase :=
  checkLoop installed callingUid db.allowed_apps.modCount db.allowed_apps.elements db

end ExternalAppDatabase

end AllInSafe.RemoteControl
