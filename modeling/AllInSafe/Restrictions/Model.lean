import AllInSafe.Config.Importer
import AllInSafe.Library.Utf8
import AllInSafe.Library.Runs
import Mathlib

/-!
# App restrictions

`parseRestrictionsBundle` and `importVPNProfiles` of `AppRestrictions`, over the profiles of `ProfileManager`, and
`setAllowedVpnPackages` of `OpenVPNService`.
-/

namespace AllInSafe.Restrictions
open AllInSafe.Library AllInSafe.Config

/-! ## Profiles -/

/-- A profile with the fields that the app restrictions and the app policy read. -/
structure ManagedProfile where
  vpn : VpnProfile
  mAlias : Option Str := none
  mVersion : Int := 0
  mUserEditable : Bool := true
  mProfileCreator : Option Str := none
  importedProfileHash : Option Str := none
  mAllowedAppsVpn : Finset Str := ∅
  mAllowedAppsVpnAreDisallowed : Bool := true
  deriving DecidableEq

def PROFILE_CREATOR : Str := "de.blinkt.openvpn.api.AppRestrictions"

def ManagedProfile.managed (p : ManagedProfile) : Bool := p.mProfileCreator = some PROFILE_CREATOR

/-- A profile with what `saveProfile` has written of it, in this order. -/
structure Saving where
  profile : ManagedProfile
  saves : List ManagedProfile := []

namespace Saving

def map (f : ManagedProfile → ManagedProfile) (s : Saving) : Saving := { s with profile := f s.profile }

def save (s : Saving) : Saving :=
  let profile := { s.profile with mVersion := wrap 32 (s.profile.mVersion + 1) }
  ⟨profile, s.saves ++ [profile]⟩

end Saving

/-- The profiles of `ProfileManager` by their UUIDs, what has been saved and the preference `alwaysOnVpn`. A profile
that is not in the memory is not in the storage, so that looking for it there changes nothing. -/
structure Store where
  profiles : Str → Option ManagedProfile
  saves : List ManagedProfile := []
  alwaysOnVpn : Option Str := none

def Store.put (uuid : Str) (s : Saving) (store : Store) : Store :=
  { store with profiles := Function.update store.profiles uuid (some s.profile), saves := store.saves ++ s.saves }

/-! ## Bundles -/

structure ProfileBundle where
  uuid : Option Str
  ovpn : Option Str
  name : Option Str
  certificate_alias : Option Str := none
  allowed_apps : Option Str := none
  deriving DecidableEq, Repr

/-- The keys that concern profiles. A parcelable of the list that is no bundle is `none`. -/
structure RestrictionsBundle where
  version : Option Str
  vpn_configuration_list : Option (List (Option ProfileBundle))
  defaultprofile : Option Str := none
  deriving DecidableEq, Repr

/-- `TextUtils.isEmpty`. -/
def isEmpty (s : Option Str) : Bool := s.getD [] = []

/-! ## AppRestrictions -/

/-- The digest in hexadecimal digits, Base64 with the decoding of its bytes, the text of the UUID that a string is
read as, and the conversion of a configuration. -/
structure Platform where
  sha1 : List UInt8 → Str
  base64 : Str → Option Str
  fromString : Str → Option Str
  fromString_text : ∀ s k, fromString s = some k → fromString k = some k
  convertProfile : Str → Except Throwable VpnProfile

section
variable (pf : Platform)

def prepare (config : Str) : Str :=
  if '\n' ∉ config && ' ' ∉ config then (pf.base64 config).getD config else config

def hashConfig (rawconfig : Str) (allowedApps : Option Str) : Str :=
  pf.sha1 (Utf8.encode (prepare pf rawconfig) ++ Utf8.encode (allowedApps.getD []))

def keystoreType (pkcs12present : Bool) (certAlias : Str) (type : AuthenticationType) : AuthenticationType :=
  if certAlias ≠ [] then
    match type with
    | .PKCS12 => .KEYSTORE
    | .CERTIFICATES => .KEYSTORE
    | .USERPASS_CERTIFICATES => .USERPASS_KEYSTORE
    | .USERPASS_PKCS12 => .USERPASS_KEYSTORE
    | type => type
  else
    match type with
    | .USERPASS_KEYSTORE => if pkcs12present then .USERPASS_PKCS12 else .USERPASS_CERTIFICATES
    | .KEYSTORE => if pkcs12present then .PKCS12 else .CERTIFICATES
    | type => type

def withAlias (certAlias : Option Str) (p : ManagedProfile) : ManagedProfile :=
  { p with
    vpn := { p.vpn with
      mAuthenticationType :=
        keystoreType (!isEmpty p.vpn.mPKCS12Filename) (certAlias.getD []) p.vpn.mAuthenticationType }
    mAlias := some (certAlias.getD []) }

def addCertificateAlias (certAlias : Option Str) (s : Saving) : Saving :=
  let oldType := s.profile.vpn.mAuthenticationType
  let oldAlias := s.profile.mAlias
  let s := s.map (withAlias certAlias)
  if s.profile.mAlias ≠ oldAlias ∨ oldType ≠ s.profile.vpn.mAuthenticationType then s.save else s

/-- The exceptions that `addProfile` catches. -/
def caught : Throwable → Bool
  | .configParseError _ => true
  | .ioException => true
  | .numberFormat _ => true
  | .arrayIndexOutOfBounds => false
  | .stringIndexOutOfBounds => false
  | .noSuchElement => false
  | .endless => false

/-- The converted profile before it is added. -/
def provisioned (vpn : VpnProfile) (name ovpnHash : Str) (vpnProfile : Option ManagedProfile) : ManagedProfile where
  vpn := { vpn with mName := name }
  mProfileCreator := some PROFILE_CREATOR
  mUserEditable := false
  importedProfileHash := some ovpnHash
  mVersion := (vpnProfile.map fun old => wrap 32 (old.mVersion + 1)).getD 0
  mAlias := vpnProfile.bind ManagedProfile.mAlias

/-- The profile that is added with its UUID, or `none` where an exception was caught. -/
def addProfile (config uuid name : Str) (vpnProfile : Option ManagedProfile) (ovpnHash : Str) :
    Except Throwable (Option (Str × Saving)) :=
  match pf.convertProfile (prepare pf config) with
  | .error e => if caught e then .ok none else .error e
  | .ok vpn =>
      match pf.fromString uuid with
      | none => .ok none
      | some uuid => .ok (some (uuid, Saving.save ⟨provisioned vpn name ovpnHash vpnProfile, []⟩))

/-- The apps between the separators. -/
def packages (allowedApps : Str) : Finset Str :=
  ((Str.split (fun c => c = ',' || c = ':' || c = ' ' || c = '\n' || c = '\r') allowedApps).filter
    fun app => !app.isEmpty).toFinset

def updateAllowedApps (allowedApps : Option Str) (s : Saving) : Saving :=
  match allowedApps with
  | some allowedApps =>
      if packages allowedApps ≠ s.profile.mAllowedAppsVpn then
        (s.map fun p =>
          { p with mAllowedAppsVpn := packages allowedApps, mAllowedAppsVpnAreDisallowed := false }).save
      else s
  | none => s

def keepAllowedApps (allowedApps : Option Str) (oldAllowedPackages : Option (Finset Str)) (s : Saving) : Saving :=
  match oldAllowedPackages with
  | some old => if isEmpty allowedApps then (s.map fun p => { p with mAllowedAppsVpn := old }).save else s
  | none => s

/-- The local variables of `importVPNProfiles`. -/
structure Import where
  store : Store
  provisionedUuids : List Str := []
  defaultprofile : Option Str
  defaultprofileProvisioned : Bool := false

/-- What follows `addProfile`. -/
def configure (p : ProfileBundle) (vpnProfile : Option ManagedProfile) (s : Saving) : Saving :=
  let s := addCertificateAlias p.certificate_alias s
  let s := updateAllowedApps p.allowed_apps s
  keepAllowedApps p.allowed_apps (vpnProfile.map ManagedProfile.mAllowedAppsVpn) s

/-- An entry whose configuration is not the one of the profile. -/
def importProfile (p : ProfileBundle) (uuid ovpn name ovpnHash : Str) (vpnProfile : Option ManagedProfile)
    (store : Store) : Except Throwable Store :=
  match addProfile pf ovpn uuid name vpnProfile ovpnHash with
  | .error e => .error e
  | .ok none => .ok store
  | .ok (some (key, s)) => .ok (store.put key (configure p vpnProfile s))

/-- The entry misses its UUID, its configuration or its name. -/
def ProfileBundle.misses (p : ProfileBundle) : Bool := isEmpty p.uuid || isEmpty p.ovpn || isEmpty p.name

def ProfileBundle.key (p : ProfileBundle) : Str := Paragraph.toLowerCase (p.uuid.getD [])

def ProfileBundle.hash (p : ProfileBundle) : Str := hashConfig pf (p.ovpn.getD []) p.allowed_apps

/-- What an entry does to the profiles. -/
def applyProfile (p : ProfileBundle) (store : Store) : Except Throwable Store :=
  match store.profiles p.key with
  | some vpnProfile =>
      if vpnProfile.importedProfileHash = some (p.hash pf) then
        .ok (store.put p.key (addCertificateAlias p.certificate_alias ⟨vpnProfile, []⟩))
      else importProfile pf p p.key (p.ovpn.getD []) (p.name.getD []) (p.hash pf) (some vpnProfile) store
  | none => importProfile pf p p.key (p.ovpn.getD []) (p.name.getD []) (p.hash pf) none store

def importVPNProfile (v : Import) (profile : Option ProfileBundle) : Except Throwable Import :=
  match profile with
  | none => .ok v
  | some p =>
      if p.misses then .ok v
      else do
        let store ← applyProfile pf p v.store
        let defaultprofile := v.defaultprofile.map Paragraph.toLowerCase
        return {
          store := store
          provisionedUuids := p.key :: v.provisionedUuids
          defaultprofile := defaultprofile
          defaultprofileProvisioned := v.defaultprofileProvisioned || some p.key = defaultprofile }

/-- The managed profiles that are no longer in the list are removed. -/
def removeProfiles (provisionedUuids : List Str) (store : Store) : Store :=
  { store with
    profiles := fun uuid => (store.profiles uuid).filter fun vp => !(vp.managed && uuid ∉ provisionedUuids) }

def setAlwaysOn (v : Import) : Store :=
  if !isEmpty v.defaultprofile && v.defaultprofileProvisioned then { v.store with alwaysOnVpn := v.defaultprofile }
  else v.store

def importVPNProfiles (defaultprofile : Option Str) (profileList : List (Option ProfileBundle)) (store : Store) :
    Except Throwable Store := do
  let v ← profileList.foldlM (importVPNProfile pf) { store := store, defaultprofile := defaultprofile }
  return setAlwaysOn { v with store := removeProfiles v.provisionedUuids v.store }

def CONFIG_VERSION : Int := 1

/-- The version is `(not set)` where the bundle has none. -/
def RestrictionsBundle.supported (restrictions : RestrictionsBundle) : Bool :=
  parseInt (restrictions.version.getD "(not set)") = .ok CONFIG_VERSION

def parseRestrictionsBundle (restrictions : RestrictionsBundle) (store : Store) : Except Throwable Store :=
  if restrictions.supported then
    importVPNProfiles pf restrictions.defaultprofile (restrictions.vpn_configuration_list.getD []) store
  else .ok store

end

/-! ## OpenVPNService -/

def ORBOT_PACKAGE_NAME : Str := "org.torproject.android"

/-- The applications that were named to the builder of the tunnel. -/
structure Builder where
  allowedApplications : Finset Str := ∅
  disallowedApplications : Finset Str := ∅
  deriving DecidableEq

/-- A package that is not installed is skipped. -/
def setAllowedVpnPackages (packageName : Str) (installed : Finset Str) (profileUsesOrBot : Bool)
    (p : ManagedProfile) : Builder :=
  if p.mAllowedAppsVpnAreDisallowed then
    { disallowedApplications := (p.mAllowedAppsVpn ∩ installed) ∪
        if profileUsesOrBot then {ORBOT_PACKAGE_NAME} ∩ installed else ∅ }
  else
    let allowed := (p.mAllowedAppsVpn ∩ installed).filter fun pkg => !(profileUsesOrBot && pkg = ORBOT_PACKAGE_NAME)
    { allowedApplications := if allowed = ∅ then {packageName} else allowed }

/-- The installed apps whose traffic goes through a tunnel: the allowed ones, or all but the disallowed ones. -/
def Builder.throughVpn (installed : Finset Str) (b : Builder) : Finset Str :=
  if b.allowedApplications = ∅ then installed \ b.disallowedApplications else b.allowedApplications

def appsThroughVpn (packageName : Str) (installed : Finset Str) (profileUsesOrBot : Bool) (p : ManagedProfile) :
    Finset Str :=
  (setAllowedVpnPackages packageName installed profileUsesOrBot p).throughVpn installed

end AllInSafe.Restrictions
