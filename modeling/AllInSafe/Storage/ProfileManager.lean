import AllInSafe.Library.Runs
import AllInSafe.Storage.Lemmas.Plain

/-!
# The profile list and the files of the profiles

The calls of `ProfileManager` one after the other, none of which crashes.
-/

namespace AllInSafe.Storage
open AllInSafe.Library

variable {α β : Type}

/-- The fate of an operation that only happens when the file exists. -/
def ifExists (files : Files β) (f : FileName) (fate : Fate) : List Fate := if (files f).isSome then [fate] else []

/-- Where the encryption of a save fails: at the first operation on the encrypted file, which is the renaming of an
old one if there is any, when the file is opened, or when its header is written. -/
inductive EncryptionFailure
  | first
  | opening
  | header (written : Nat)
  deriving DecidableEq, Repr

def EncryptionFailure.fates (files : Files β) (filename : String) : EncryptionFailure → List Fate
  | .first => [.fails 0]
  | .opening => ifExists files ⟨filename, .cp⟩ .done ++ [.fails 0]
  | .header written => ifExists files ⟨filename, .cp⟩ .done ++ [.done, .fails written]

/-- The script of a save in which nothing fails but the encryption. -/
def saveFates (ctx : Context) (broken : Bool) (files : Files β) (filename : String) :
    Option EncryptionFailure → List Fate
  | none => []
  | some failure =>
      if EncryptionUsed ctx broken then
        ifExists files ⟨filename, .cpold⟩ .done ++ failure.fates (files.set ⟨filename, .cpold⟩ none) filename
      else []

/-- `profiles` is the key set of the map, `vpnlist` the stored list. The last field is not in the program: what was
last saved under a name since a profile of this UUID was last removed. -/
structure Manager (α β : Type) where
  files : Files β := fun _ => none
  encryptionBroken : Bool := false
  profiles : Finset String := ∅
  vpnlist : Finset String := ∅
  lastSaved : String → Option (VpnProfile α) := fun _ => none

inductive Call (α : Type)
  | addProfile (profile : VpnProfile α)
  | saveProfile (ctx : Context) (profile : VpnProfile α) (failure : Option EncryptionFailure)
  | saveProfileList
  | removeProfile (profile : VpnProfile α)

namespace Manager

def addProfile (profile : VpnProfile α) (m : Manager α β) : Option (Manager α β) :=
  profile.mUuid.map fun uuid => { m with profiles := insert uuid m.profiles }

def saveProfile (pf : Platform α β) (ctx : Context) (profile : VpnProfile α) (failure : Option EncryptionFailure)
    (m : Manager α β) : Option (Manager α β) :=
  profile.filename.bind fun filename =>
    match Storage.saveProfile pf ctx 2
      ⟨m.files, m.encryptionBroken, profile, saveFates ctx m.encryptionBroken m.files filename failure⟩ with
    | .error _ _ => none
    | .ok _ d => some { m with
        files := d.files, encryptionBroken := d.encryptionBroken
        lastSaved := Function.update m.lastSaved filename (some d.profile) }

def saveProfileList (m : Manager α β) : Manager α β := { m with vpnlist := m.profiles }

def deleteFile (f : FileName) (m : Manager α β) : Manager α β := { m with files := m.files.set f none }

def removeProfile (profile : VpnProfile α) (m : Manager α β) : Option (Manager α β) :=
  profile.mUuid.map fun vpnentry =>
    let m := { m with profiles := m.profiles.erase vpnentry }
    let m := m.saveProfileList.deleteFile ⟨vpnentry, .vp⟩
    { m with lastSaved := Function.update m.lastSaved vpnentry none }

/-- `none` is an exception that the caller gets. -/
def step (pf : Platform α β) (m : Manager α β) : Call α → Option (Manager α β)
  | .addProfile profile => m.addProfile profile
  | .saveProfile ctx profile failure => m.saveProfile pf ctx profile failure
  | .saveProfileList => some m.saveProfileList
  | .removeProfile profile => m.removeProfile profile

end Manager

def manager (pf : Platform α β) : Machine (Manager α β) (Call α) where
  init := {}
  step := Manager.step pf

/-! ## What the storage shall hold -/

/-- Exactly one of the two files exists, and it holds the profile. -/
def Holds (pf : Platform α β) (files : Files β) (filename : String) (q : VpnProfile α) : Prop :=
  (files ⟨filename, .cp⟩ = some (pf.encrypt ⟨filename, .cp⟩ (pf.serialize q)) ∧ files ⟨filename, .vp⟩ = none) ∨
    (files ⟨filename, .vp⟩ = some (pf.serialize q) ∧ files ⟨filename, .cp⟩ = none)

/-- The storage matches the list. -/
structure Tidy (pf : Platform α β) (m : Manager α β) : Prop where
  known : ∀ f, m.files f ≠ none →
    f.filename ∈ m.vpnlist ∨ m.lastSaved f.filename ≠ none ∨ f.filename = TEMPORARY_PROFILE_FILENAME
  holds : ∀ uuid ∈ m.vpnlist, ∀ q, m.lastSaved uuid = some q → Holds pf m.files uuid q

/-- A profile is removed only when it has no file but the `.vp`. -/
def RemovesPlain (m : Manager α β) : Call α → Prop
  | .removeProfile profile => ∀ vpnentry, profile.mUuid = some vpnentry → vpnentry ≠ TEMPORARY_PROFILE_FILENAME →
      m.files ⟨vpnentry, .cp⟩ = none ∧ m.files ⟨vpnentry, .cpold⟩ = none
  | _ => True

end AllInSafe.Storage
