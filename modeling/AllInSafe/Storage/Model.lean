import Mathlib

/-!
# Saving and loading a profile

`saveProfile` and `loadVpnEntry` of `ProfileManager`. The script of a run tells for every file operation whether it
succeeds, fails or is the one at which the process is killed.
-/

namespace AllInSafe.Storage

inductive Suffix
  | vp
  | cp
  | cpold
  deriving DecidableEq, Repr

/-- `filename + ".vp"` and so on. -/
structure FileName where
  filename : String
  suffix : Suffix
  deriving DecidableEq, Repr

/-- The contents of the files, over any type of bytes. -/
abbrev Files (β : Type) := FileName → Option (List β)

def Files.set {β : Type} (files : Files β) (f : FileName) (content : Option (List β)) : Files β :=
  fun g => if g = f then content else files g

structure ChangeLogEntry where
  time : Int
  message : String
  deriving DecidableEq, Repr

/-- The fields that saving and loading look at; `rest` is all else that is serialised. -/
structure VpnProfile (α : Type) where
  mUuid : Option String
  mName : Option String
  mVersion : Int
  mTemporaryProfile : Bool
  changesLog : List ChangeLogEntry
  rest : α
  deriving DecidableEq, Repr

/-- The Java serialisation, `EncryptedFile`, which binds a ciphertext to its file, and the upgrade of old
profiles. -/
structure Platform (α β : Type) where
  serialize : VpnProfile α → List β
  /-- `none` is an exception of `ObjectInputStream`. -/
  deserialize : List β → Option (VpnProfile α)
  /-- The part of the ciphertext that is written when the file is opened. -/
  header : FileName → List β
  encrypt : FileName → List β → List β
  /-- `none` is an exception of `EncryptedFile`. -/
  decrypt : FileName → List β → Option (List β)
  upgradeProfile : VpnProfile α → VpnProfile α
  deserialize_serialize : ∀ p, deserialize (serialize p) = some p
  deserialize_nil : deserialize [] = none
  decrypt_encrypt : ∀ f b, decrypt f (encrypt f b) = some b
  decrypt_partial : ∀ f b c, c <+: encrypt f b → c ≠ encrypt f b → decrypt f c = none
  header_prefix : ∀ f b, header f <+: encrypt f b
  header_ne_nil : ∀ f, header f ≠ []

/-- What becomes of a file operation; the number is how many bytes of a write reach the file. -/
inductive Fate
  | done
  | fails (written : Nat)
  | killed (written : Nat)
  deriving DecidableEq, Repr

/-- The ways in which `saveProfile` ends early. -/
inductive Stop
  | killed
  | ioException
  | securityException
  | nullPointerException
  | runtimeException
  | outOfFuel
  deriving DecidableEq, Repr

/-- What a save reads of the preferences and of the process it runs in. -/
structure Context where
  preferencryption : Bool := true
  masterKey : Bool := true
  /-- Whether the Android version logs every save in the profile. -/
  logsSaves : Bool := true
  processName : String := ""
  currentTimeMillis : Int := 0
  deriving DecidableEq, Repr

def Context.encryptionEnabled (ctx : Context) : Bool := ctx.masterKey

/-- The state of a save: the files, the static flag, the profile in memory and what will become of the file
operations. -/
structure Device (α β : Type) where
  files : Files β
  encryptionBroken : Bool
  profile : VpnProfile α
  fates : List Fate

abbrev Save (α β : Type) := EStateM Stop (Device α β)

namespace Save

variable {α β : Type}

/-! ## File operations -/

/-- When the script is at its end, every operation succeeds. -/
def nextFate : Save α β Fate := fun d =>
  match d.fates with
  | [] => .ok .done d
  | fate :: fates => .ok fate { d with fates := fates }

def fileExists (f : FileName) : Save α β Bool := do return ((← get).files f).isSome

def put (f : FileName) (content : Option (List β)) : Save α β Unit := modify fun d => { d with files := d.files.set f content }

def delete (f : FileName) : Save α β Bool := do
  match ← nextFate with
  | .done => put f none; return true
  | .fails _ => return false
  | .killed _ => throw .killed

def renameTo (f g : FileName) : Save α β Bool := do
  match ← nextFate with
  | .done =>
      let content := (← get).files f
      put f none
      put g content
      return true
  | .fails _ => return false
  | .killed _ => throw .killed

/-- `if (f.exists()) f.delete()`, whose result nobody looks at. -/
def deleteExisting (f : FileName) : Save α β Unit := do
  if ← fileExists f then
    let _ ← delete f

/-- Opens the file for writing and truncates it. -/
def openFileOutput (f : FileName) : Save α β Unit := do
  match ← nextFate with
  | .done => put f (some [])
  | .fails _ => throw .ioException
  | .killed _ => throw .killed

/-- Writes the content that the open file shall have; what has been written before is its beginning. -/
def write (f : FileName) (content : List β) (failure : Stop) : Save α β Unit := do
  let written := (((← get).files f).getD []).length
  match ← nextFate with
  | .done => put f (some content)
  | .fails n => put f (some (content.take (written + n))); throw failure
  | .killed n => put f (some (content.take (written + n))); throw .killed

/-- `ProfileEncryption.getEncryptedVpOutput`, which refuses an existing file. -/
def getEncryptedVpOutput (pf : Platform α β) (f : FileName) : Save α β Unit := do
  if ← fileExists f then throw .ioException
  else
    openFileOutput f
    write f (pf.header f) .securityException

end Save

/-! ## saveProfile -/

section

variable {α β : Type}

def VpnProfile.addChangeLogEntry (p : VpnProfile α) (now : Int) (message : String) : VpnProfile α :=
  { p with changesLog := p.changesLog.drop (p.changesLog.length - 50) ++ [⟨now, message⟩] }

def TEMPORARY_PROFILE_FILENAME : String := "temporary-vpn-profile"

/-- The name of the files of a profile. -/
def VpnProfile.filename (p : VpnProfile α) : Option String :=
  p.mUuid.map fun uuid => if p.mTemporaryProfile then TEMPORARY_PROFILE_FILENAME else uuid

/-- What every save does to the profile in memory. -/
def VpnProfile.nextVersion (ctx : Context) (p : VpnProfile α) : VpnProfile α :=
  let p := { p with mVersion := p.mVersion + 1 }
  if ctx.logsSaves then
    p.addChangeLogEntry ctx.currentTimeMillis s!"Saving from version {p.mVersion} from process {ctx.processName}"
  else p

open Save

variable (pf : Platform α β) (ctx : Context)

/-- Opens the encrypted file: whether it is open for writing now, or the encryption failed. -/
def openEncrypted (filename : String) : Save α β Bool := do
  if ← fileExists ⟨filename, .cp⟩ then
    let _ ← renameTo ⟨filename, .cp⟩ ⟨filename, .cpold⟩
  try
    getEncryptedVpOutput pf ⟨filename, .cp⟩
    deleteExisting ⟨filename, .cpold⟩
    pure true
  catch e =>
    match e with
    | .ioException | .securityException => pure false
    | e => throw e

/-- The writing of the open file, and the deletion of the file in the other format. -/
def writeProfile (f : FileName) (content : List β) (deleteIfExists : FileName) : Save α β Unit := do
  write f content .ioException
  deleteExisting deleteIfExists

/-- The `try` of `saveProfile`; `again` is the recursive call after a failed encryption. -/
def writeVpnFile (again : Save α β Unit) (encrypted : Bool) (filename : String) : Save α β Unit := do
  try
    if encrypted then
      if ← openEncrypted pf filename then
        let content := pf.encrypt ⟨filename, .cp⟩ (pf.serialize (← get).profile)
        writeProfile ⟨filename, .cp⟩ content ⟨filename, .vp⟩
      else
        modify fun d => { d with encryptionBroken := true }
        again
    else
      openFileOutput ⟨filename, .vp⟩
      writeProfile ⟨filename, .vp⟩ (pf.serialize (← get).profile) ⟨filename, .cp⟩
  catch e =>
    match e with
    | .ioException => throw .runtimeException
    | e => throw e

def saveProfileBody (again : Save α β Unit) : Save α β Unit := do
  let preferEncryption := ctx.preferencryption && !(← get).encryptionBroken
  modify fun d => { d with profile := d.profile.nextVersion ctx }
  match (← get).profile.filename with
  | none => throw .nullPointerException
  | some filename =>
      deleteExisting ⟨filename, .cpold⟩
      writeVpnFile pf again (preferEncryption && ctx.encryptionEnabled) filename

/-- The recursion happens once at most: it switches the encryption off. -/
def saveProfile : (fuel : Nat) → Save α β Unit
  | 0 => throw .outOfFuel
  | fuel + 1 => saveProfileBody pf ctx (saveProfile fuel)

/-! ## loadVpnEntry -/

/-- `ProfileEncryption.getEncryptedVpInput`; without a master key it is a null pointer. -/
def getEncryptedVpInput (f : FileName) (content : List β) : Except Stop (Option (List β)) :=
  if ctx.masterKey then .ok (pf.decrypt f content) else .error .nullPointerException

/-- What becomes of the profile that was read: one without name or UUID is dropped. -/
def sanityCheck (vp : VpnProfile α) : Option (VpnProfile α) :=
  if vp.mName.isNone || vp.mUuid.isNone then none else some (pf.upgradeProfile vp)

/-- The profile that is put into the list, if any: exceptions of the input are logged only. -/
def loadVpnEntry (vpnentry : String) (files : Files β) : Except Stop (Option (VpnProfile α)) := do
  let vpInput ←
    match files ⟨vpnentry, .cp⟩, files ⟨vpnentry, .cpold⟩ with
    | some content, _ => getEncryptedVpInput pf ctx ⟨vpnentry, .cp⟩ content
    | none, some content => getEncryptedVpInput pf ctx ⟨vpnentry, .cpold⟩ content
    | none, none => pure (files ⟨vpnentry, .vp⟩)
  return (vpInput.bind pf.deserialize).bind (sanityCheck pf)

end

end AllInSafe.Storage
