import AllInSafe.Config.Exporter

/-!
# Passwords for the core

`PasswordCache`, the getters of `VpnProfile` that read it, `processPWCommand` of `OpenVpnManagementThread` and the
password in `setConfig` of `OpenVPNThreadv3`. What changes the static `mInstance` returns its new value.
-/

namespace AllInSafe.Management
open AllInSafe.Library AllInSafe.Config

/-! ## PasswordCache -/

structure PasswordCache (UUID : Type) where
  mUuid : UUID
  mKeyOrPkcs12Password : Option Str := none
  mAuthPassword : Option Str := none
  deriving DecidableEq, Repr

namespace PasswordCache

variable {UUID : Type} [DecidableEq UUID]

def PCKS12ORCERTPASSWORD : Int := 2
def AUTHPASSWORD : Int := 3

def getInstance (uuid : UUID) : Option (PasswordCache UUID) → PasswordCache UUID
  | none => { mUuid := uuid }
  | some mInstance => if mInstance.mUuid = uuid then mInstance else { mUuid := uuid }

def getPKCS12orCertificatePassword (uuid : UUID) (resetPw : Bool) (mInstance : Option (PasswordCache UUID)) :
    Option Str × Option (PasswordCache UUID) :=
  let cache := getInstance uuid mInstance
  (cache.mKeyOrPkcs12Password, some (if resetPw then { cache with mKeyOrPkcs12Password := none } else cache))

def getAuthPassword (uuid : UUID) (resetPW : Bool) (mInstance : Option (PasswordCache UUID)) :
    Option Str × Option (PasswordCache UUID) :=
  let cache := getInstance uuid mInstance
  (cache.mAuthPassword, some (if resetPW then { cache with mAuthPassword := none } else cache))

def setCachedPassword (uuid : UUID) (type : Int) (password : Option Str) (mInstance : Option (PasswordCache UUID)) :
    Option (PasswordCache UUID) :=
  let cache := getInstance uuid mInstance
  if type = PCKS12ORCERTPASSWORD then some { cache with mKeyOrPkcs12Password := password }
  else if type = AUTHPASSWORD then some { cache with mAuthPassword := password }
  else some cache

end PasswordCache

/-! ## VpnProfile -/

/-- A profile with its `mUuid`. -/
structure IdentifiedProfile (UUID : Type) extends StoredProfile where
  mUuid : UUID

namespace IdentifiedProfile

variable {UUID : Type} [DecidableEq UUID] (vp : IdentifiedProfile UUID)

def getPasswordPrivateKey (mInstance : Option (PasswordCache UUID)) : Option Str × Option (PasswordCache UUID) :=
  let (cachedPw, mInstance) := PasswordCache.getPKCS12orCertificatePassword vp.mUuid true mInstance
  match cachedPw with
  | some cachedPw => (some cachedPw, mInstance)
  | none =>
      match vp.mAuthenticationType with
      | .PKCS12 | .USERPASS_PKCS12 => (vp.mPKCS12Password, mInstance)
      | .CERTIFICATES | .USERPASS_CERTIFICATES => (vp.mKeyPassword, mInstance)
      | _ => (none, mInstance)

def getPasswordAuth (mInstance : Option (PasswordCache UUID)) : Option Str × Option (PasswordCache UUID) :=
  let (cachedPw, mInstance) := PasswordCache.getAuthPassword vp.mUuid true mInstance
  match cachedPw with
  | some cachedPw => (some cachedPw, mInstance)
  | none => (some vp.mPassword, mInstance)

end IdentifiedProfile

/-! ## OpenVpnManagementThread -/

/-- The local variables `username` and `pw`. -/
structure Credentials where
  username : Option Str := none
  pw : Option Str := none
  deriving DecidableEq, Repr

inductive PWReply
  | nothing
  /-- The argument could not be parsed. -/
  | logError (argument : Str)
  | proccessPWFailed (needed args : Str)
  | requestInputFromUser (needed : Str)
  | managmentCommands (cmds : List Str)
  deriving DecidableEq, Repr

/-- What stands between the first two quotes, and what follows them. -/
def neededOf (argument : Str) : Option (Str × Str) :=
  match argument.dropWhile (· ≠ '\'') with
  | [] => none
  | _ :: rest =>
      match rest.dropWhile (· ≠ '\'') with
      | [] => none
      | _ :: args => some (rest.takeWhile (· ≠ '\''), args)

variable {UUID : Type} [DecidableEq UUID]

/-- The switch over `needed`. -/
def credentials (mProfile : IdentifiedProfile UUID) (mCurrentProxyConnection : Option Connection) (needed : Str)
    (mInstance : Option (PasswordCache UUID)) : Credentials × Option (PasswordCache UUID) :=
  if needed = "Private Key".toList then
    let (pw, mInstance) := mProfile.getPasswordPrivateKey mInstance
    ({ pw := pw }, mInstance)
  else if needed = "Auth".toList then
    let (pw, mInstance) := mProfile.getPasswordAuth mInstance
    ({ pw := pw, username := mProfile.mUsername }, mInstance)
  else if needed = "HTTP Proxy".toList then
    match mCurrentProxyConnection with
    | some connection =>
        ({ pw := connection.mProxyAuthPassword, username := connection.mProxyAuthUser }, mInstance)
    | none => ({}, mInstance)
  else ({}, mInstance)

def credentialCommand (cmd needed value : Str) : Str :=
  cmd ++ " '" ++ needed ++ "' " ++ openVpnEscape value ++ "\n"

def pwReply (needed : Str) (c : Credentials) : PWReply :=
  match c.pw with
  | some pw =>
      let usercmd := c.username.elim [] fun username => [credentialCommand "username" needed username]
      .managmentCommands (usercmd ++ [credentialCommand "password" needed pw])
  | none => .requestInputFromUser needed

def processPWCommand (mProfile : IdentifiedProfile UUID) (mCurrentProxyConnection : Option Connection)
    (argument : Str) (mInstance : Option (PasswordCache UUID)) : PWReply × Option (PasswordCache UUID) :=
  if Str.startsWith "Auth-Token:" argument then (.nothing, mInstance)
  else
    match neededOf argument with
    | none => (.logError argument, mInstance)
    | some (needed, args) =>
        if Str.startsWith "Verification Failed" argument then (.proccessPWFailed needed args, mInstance)
        else
          let (c, mInstance) := credentials mProfile mCurrentProxyConnection needed mInstance
          (pwReply needed c, mInstance)

/-! ## OpenVPNThreadv3 -/

/-- The argument of `setPrivateKeyPassword` in `setConfig`; `none` is `null` or no call. -/
def privateKeyPassword (mVp : IdentifiedProfile UUID) (mInstance : Option (PasswordCache UUID)) :
    Option Str × Option (PasswordCache UUID) :=
  let (pw, mInstance) := mVp.getPasswordPrivateKey mInstance
  if pw ≠ none then mVp.getPasswordPrivateKey mInstance else (none, mInstance)

end AllInSafe.Management
