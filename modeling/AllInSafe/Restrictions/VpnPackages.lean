import AllInSafe.Restrictions.Model
import AllInSafe.Library.FailFast

/-!
# The packages of a tunnel

`setAllowedVpnPackages` of `OpenVPNService` with the set of packages that it iterates over and removes from, and the
builder of the tunnel, which knows the installed packages.
-/

namespace AllInSafe.Restrictions.OpenVPNService
open AllInSafe.Library AllInSafe.Config

/-! ## VpnService.Builder -/

inductive BuilderException
  | nameNotFound
  | unsupportedOperation
  deriving DecidableEq, Repr

/-- The installed packages. The app asks for its tunnel while it is one of them. -/
structure PackageManager where
  installed : Finset Str
  packageName : Str
  packageName_installed : packageName ∈ installed

/-- The applications that were named to the builder, where there are any. It takes allowed or disallowed ones, not
both. -/
structure VpnBuilder where
  allowedApplications : Option (List Str) := none
  disallowedApplications : Option (List Str) := none
  bypass : Bool := false
  exclusive : allowedApplications = none ∨ disallowedApplications = none := by simp
  deriving DecidableEq

namespace VpnBuilder

variable (pm : PackageManager)

def addAllowedApplication (packageName : Str) (b : VpnBuilder) : Except BuilderException VpnBuilder :=
  if h : b.disallowedApplications = none then
    if packageName ∈ pm.installed then
      .ok { b with
        allowedApplications := some (b.allowedApplications.getD [] ++ [packageName])
        exclusive := .inr h }
    else .error .nameNotFound
  else .error .unsupportedOperation

def addDisallowedApplication (packageName : Str) (b : VpnBuilder) : Except BuilderException VpnBuilder :=
  if h : b.allowedApplications = none then
    if packageName ∈ pm.installed then
      .ok { b with
        disallowedApplications := some (b.disallowedApplications.getD [] ++ [packageName])
        exclusive := .inl h }
    else .error .nameNotFound
  else .error .unsupportedOperation

def allowBypass (b : VpnBuilder) : VpnBuilder := { b with bypass := true }

/-- The applications of the one list or of the other. -/
def applications (disallowed : Bool) (b : VpnBuilder) : List Str :=
  (if disallowed then b.disallowedApplications else b.allowedApplications).getD []

/-- The builder of the app policy. -/
def toBuilder (b : VpnBuilder) : Builder where
  allowedApplications := (b.applications false).toFinset
  disallowedApplications := (b.applications true).toFinset

end VpnBuilder

/-! ## setAllowedVpnPackages -/

/-- What the service reads of its profile to filter the apps. The set is in the order of its iterator. -/
structure AppProfile where
  mConnections : List Connection := [{}]
  mAllowedAppsVpn : FailFast Str
  mAllowedAppsVpnAreDisallowed : Bool := true
  mAllowAppVpnBypass : Bool := false

inductive Message
  | usesOrbot
  | orbotNotInstalled
  | app_no_longer_exists (pkg : Str)
  | no_allowed_app (packageName : Str)
  | shouldNotHappen
  | disallowed_vpn_apps_info (apps : Str)
  | allowed_vpn_apps_info (apps : Str)
  | mayBypass
  deriving DecidableEq, Repr

/-- The builder, the set of the profile, the local variable of the loop and what has been logged. -/
structure Filtering where
  builder : VpnBuilder
  mAllowedAppsVpn : FailFast Str
  atLeastOneAllowedApp : Bool := false
  log : List Message := []

namespace Filtering

def logs (message : Message) (s : Filtering) : Filtering := { s with log := s.log ++ [message] }

/-- The package is removed from the set of the profile. -/
def forget (pkg : Str) (s : Filtering) : Filtering :=
  { s with mAllowedAppsVpn := s.mAllowedAppsVpn.remove pkg }.logs (.app_no_longer_exists pkg)

end Filtering

def AppProfile.usesOrbot (p : AppProfile) : Bool := p.mConnections.any fun c => c.mProxyType = .ORBOT

/-- Orbot is not let into the tunnel that it carries. -/
def AppProfile.skips (p : AppProfile) (pkg : Str) : Bool :=
  !p.mAllowedAppsVpnAreDisallowed && (p.usesOrbot && pkg = ORBOT_PACKAGE_NAME)

section
variable (pm : PackageManager) (p : AppProfile)

/-- Orbot's own exclusion before the loop. -/
def excludeOrbot (s : Filtering) : Ending Filtering (Fault BuilderException) :=
  if p.mAllowedAppsVpnAreDisallowed && p.usesOrbot then
    match s.builder.addDisallowedApplication pm ORBOT_PACKAGE_NAME with
    | .ok builder => .ended { s with builder := builder }
    | .error .nameNotFound => .ended (s.logs .orbotNotInstalled)
    | .error e => .thrown (.body e) s
  else .ended s

/-- The `try` of the loop. -/
def addPackage (s : Filtering) (pkg : Str) : Except BuilderException Filtering :=
  if p.mAllowedAppsVpnAreDisallowed then do
    let builder ← s.builder.addDisallowedApplication pm pkg
    return { s with builder := builder }
  else if !(p.usesOrbot && pkg = ORBOT_PACKAGE_NAME) then do
    let builder ← s.builder.addAllowedApplication pm pkg
    return { s with builder := builder, atLeastOneAllowedApp := true }
  else return s

/-- The body of the loop, with the handler that takes a missing package out of the set. -/
def tryPackage (s : Filtering) (pkg : Str) : Except BuilderException Filtering :=
  match addPackage pm p s pkg with
  | .error .nameNotFound => .ok (s.forget pkg)
  | result => result

def loopPackages (s : Filtering) : Ending Filtering (Fault BuilderException) :=
  FailFast.iterate (fun s => s.mAllowedAppsVpn.modCount) (tryPackage pm p) s.mAllowedAppsVpn.modCount s
    s.mAllowedAppsVpn.elements

def allowItself (s : Filtering) : Ending Filtering (Fault BuilderException) :=
  if !p.mAllowedAppsVpnAreDisallowed && !s.atLeastOneAllowedApp then
    let s := s.logs (.no_allowed_app pm.packageName)
    match s.builder.addAllowedApplication pm pm.packageName with
    | .ok builder => .ended { s with builder := builder }
    | .error .nameNotFound => .ended (s.logs .shouldNotHappen)
    | .error e => .thrown (.body e) s
  else .ended s

def report (s : Filtering) : Filtering :=
  let apps := List.intercalate ", ".toList s.mAllowedAppsVpn.elements
  s.logs (if p.mAllowedAppsVpnAreDisallowed then .disallowed_vpn_apps_info apps else .allowed_vpn_apps_info apps)

def letBypass (s : Filtering) : Filtering :=
  if p.mAllowAppVpnBypass then { s with builder := s.builder.allowBypass }.logs .mayBypass else s

/-- The builder that it leaves and the set of the profile, also where an exception ends it. -/
def setAllowedVpnPackages (builder : VpnBuilder) : Ending Filtering (Fault BuilderException) :=
  let s : Filtering := {
    builder := builder
    mAllowedAppsVpn := p.mAllowedAppsVpn
    log := if p.usesOrbot then [.usesOrbot] else [] }
  (((excludeOrbot pm p s).andThen (loopPackages pm p)).andThen (allowItself pm p)).andThen fun s =>
    .ended (letBypass p (report p s))

end

end AllInSafe.Restrictions.OpenVPNService
