import AllInSafe.Config.Profile
import AllInSafe.Config.Importer

/-!
# The generated configuration

`getConfigFile` and `checkProfile` of `VpnProfile` with the helpers for the routes, which they share. The constant
`mIsOpenVPN22` is false.
-/

namespace AllInSafe.Config
open AllInSafe.Library

/-- A profile with the fields that the importer leaves alone. -/
structure StoredProfile extends VpnProfile where
  mAlias : Option Str := none
  mPKCS12Password : Option Str := none
  mKeyPassword : Option Str := some []
  deriving DecidableEq, Repr

/-- What the functions read from the system and the settings of the app. -/
structure Context where
  cacheDir : Str
  versionEnvString : Str
  platformVersionEnvString : Str
  fakeMacAddr : Option Str
  usesystemproxy : Bool
  /-- The `ca`, `extra` and `user` certificates; `none` where they cannot be had. -/
  externalCertificates : Option (Option Str × Option Str × Option Str)
  keychain_access : Str
  checkTorReceier : Bool
  deriving DecidableEq, Repr

/-- `TextUtils.isEmpty`. -/
def isEmpty (s : Option Str) : Bool := s.getD [] = []

/-- What is appended where a condition holds. -/
def appendIf (b : Bool) (s : Str) : Str := if b then s else []

def number (n : Int) : Str := (toString n).toList

/-! ## Routes -/

def netmaskText (len : Nat) : Str :=
  let nm := (0xffffffff <<< (32 - len)) &&& 0xffffffff
  decimal ((nm &&& 0xff000000) >>> 24) ++ "." ++ decimal ((nm &&& 0xff0000) >>> 16) ++ "." ++
    decimal ((nm &&& 0xff00) >>> 8) ++ "." ++ decimal (nm &&& 0xff)

def cidrToIPAndNetmask (route : Str) : Option Str :=
  let parts := Str.split (· = '/') route
  let parts := if parts.length = 1 then Str.split (· = '/') (route ++ "/32") else parts
  match parts with
  | [ip, len] =>
      match parseInt len with
      | .ok len => if len < 0 || len > 32 then none else some (ip ++ "  " ++ netmaskText len.toNat)
      | .error _ => none
  | _ => none

/-- The parts of a list of routes that are not empty. -/
def routeTokens (routes : Str) : List Str :=
  (Str.split (fun c => c = '\n' || c = ' ' || c = '\t') routes).filter (· ≠ [])

/-- The loop over the routes, which returns what it has at the first route that is malformed. -/
def cidrRoutes : List Str → List Str
  | [] => []
  | route :: routes =>
      match cidrToIPAndNetmask route with
      | none => []
      | some cidrroute => cidrroute :: cidrRoutes routes

def getCustomRoutes : Option Str → List Str
  | none => []
  | some routes => cidrRoutes (routeTokens routes)

def getCustomRoutesv6 (routes : Str) : List Str := routeTokens routes

def routeLine (route gateway : Str) : Str := "route " ++ route ++ " " ++ gateway

namespace StoredProfile

variable (context : Context) (configForOvpn3 : Bool) (vp : StoredProfile)

/-! ## Questions about a profile -/

def isUserPWAuth : Bool :=
  match vp.mAuthenticationType with
  | .USERPASS | .USERPASS_CERTIFICATES | .USERPASS_KEYSTORE | .USERPASS_PKCS12 => true
  | _ => false

def usesExtraProxyOptions : Bool :=
  vp.mUseCustomConfig && Str.containsStr "http-proxy-option " vp.mCustomConfigOptions ||
    vp.mConnections.any Connection.usesExtraProxyOptions

def useTLSClient : Bool := vp.mAuthenticationType ≠ .STATICKEYS

/-! ## The parts of the configuration -/

def managementOptions : Str :=
  if configForOvpn3 then "# Config for OpenVPN 3 C++\n"
  else
    "# Config for OpenVPN 2.x\n".toList ++ "# Enables connection to GUI\n" ++ "management " ++ context.cacheDir ++
      "/mgmtsocket unix\n" ++ "management-client\n" ++ "management-query-passwords\n" ++ "management-hold\n\n" ++
      "setenv IV_GUI_VER " ++ openVpnEscape context.versionEnvString ++ " \n" ++
      "setenv IV_SSO openurl,webauth,crtext\n" ++
      "setenv IV_PLAT_VER " ++ openVpnEscape context.platformVersionEnvString ++ "\n" ++
      (context.fakeMacAddr.elim [] fun hwaddr => ("setenv IV_HWADDR " ++ hwaddr ++ "\n" : Str)) ++
      appendIf vp.mUseLegacyProvider "providers legacy default\n" ++
      appendIf (vp.mTlSCertProfile ≠ [] && vp.useTLSClient) ("tls-cert-profile " ++ vp.mTlSCertProfile ++ "\n") ++
      "machine-readable-output\n" ++ "allow-recursive-routing\n" ++ "ifconfig-nowarn\n"

def clientOption : Str :=
  if vp.useTLSClient && vp.mUsePull then "client\n"
  else if vp.mUsePull then "pull\n"
  else if vp.useTLSClient then "tls-client\n"
  else []

def retryOptions : Str :=
  let mConnectRetry : Str := if vp.mConnectRetry = [] then "2" else vp.mConnectRetry
  let mConnectRetryMaxTime : Str := if vp.mConnectRetryMaxTime = [] then "300" else vp.mConnectRetryMaxTime
  "verb 4\n".toList ++
    appendIf (vp.mConnectRetryMax ≠ "-1".toList) ("connect-retry-max " ++ vp.mConnectRetryMax ++ "\n") ++
    "connect-retry " ++ mConnectRetry ++ " " ++ mConnectRetryMaxTime ++ "\n" ++ "resolv-retry 60\n" ++ "dev tun\n"

/-- The file, where the field has one. -/
def fileIfSet (cfgentry : Str) (filedata : Option Str) : Str :=
  appendIf (!isEmpty filedata) (insertFileData cfgentry filedata)

def certificateFiles : Str :=
  fileIfSet "ca" vp.mCaFilename ++ insertFileData "key" vp.mClientKeyFilename ++
    insertFileData "cert" vp.mClientCertFilename

def pkcs12File : Str := insertFileData "pkcs12" vp.mPKCS12Filename ++ fileIfSet "ca" vp.mCaFilename

/-- The certificates of the keystore or of an external app. -/
def keystoreFiles : Str :=
  appendIf (!configForOvpn3) <|
    "### From Keystore/ext auth app ####\n".toList ++
      match context.externalCertificates with
      | none => context.keychain_access ++ "\n"
      | some (ca, extra, user) =>
          (if !isEmpty vp.mCaFilename then insertFileData "ca" vp.mCaFilename
            else appendIf (!isEmpty ca && !vp.mCheckPeerFingerprint) ("<ca>\n" ++ ca.getD [] ++ "\n</ca>\n")) ++
          appendIf (!isEmpty extra) ("<extra-certs>\n" ++ extra.getD [] ++ "\n</extra-certs>\n") ++
          "<cert>\n" ++ Connection.formatted user ++ "\n</cert>\n" ++
          "management-external-key nopadding pkcs1 pss digest\n"

def authUserPass : Str := "auth-user-pass\n"

def authenticationOptions : Str :=
  match vp.mAuthenticationType with
  | .USERPASS_CERTIFICATES => authUserPass ++ vp.certificateFiles
  | .CERTIFICATES => vp.certificateFiles
  | .USERPASS_PKCS12 => authUserPass ++ vp.pkcs12File
  | .PKCS12 => vp.pkcs12File
  | .USERPASS_KEYSTORE => authUserPass ++ vp.keystoreFiles context configForOvpn3
  | .KEYSTORE | .EXTERNAL_APP => vp.keystoreFiles context configForOvpn3
  | .USERPASS =>
      authUserPass ++ fileIfSet "ca" vp.mCaFilename ++ appendIf configForOvpn3 "client-cert-not-required\n"
  | .STATICKEYS => []

def peerOptions : Str :=
  appendIf vp.mCheckPeerFingerprint ("<peer-fingerprint>\n" ++ vp.mPeerFingerPrints ++ "\n</peer-fingerprint>\n") ++
    appendIf (vp.isUserPWAuth && vp.mAuthRetry = .NOINTERACT) "auth-retry nointeract\n" ++
    fileIfSet "crl-verify" vp.mCrlFilename ++ appendIf vp.mUseLzo "comp-lzo\n"

def tlsAuthOptions : Str :=
  appendIf vp.mUseTLSAuth <|
    let useTlsCrypt := vp.mTLSAuthDirection = "tls-crypt".toList
    let useTlsCrypt2 := vp.mTLSAuthDirection = "tls-crypt-v2".toList
    (if vp.mAuthenticationType = .STATICKEYS then insertFileData "secret" vp.mTLSAuthFilename
      else if useTlsCrypt then insertFileData "tls-crypt" vp.mTLSAuthFilename
      else if useTlsCrypt2 then insertFileData "tls-crypt-v2" vp.mTLSAuthFilename
      else insertFileData "tls-auth" vp.mTLSAuthFilename) ++
      appendIf (vp.mTLSAuthDirection ≠ [] && !useTlsCrypt && !useTlsCrypt2)
        ("key-direction " ++ vp.mTLSAuthDirection ++ "\n")

/-- The own address is the gateway of its net. -/
def ifconfigOptions : Str :=
  appendIf (!vp.mUsePull)
    (appendIf (!isEmpty vp.mIPv4Address)
        ("ifconfig " ++ Connection.formatted (cidrToIPAndNetmask (vp.mIPv4Address.getD [])) ++ "\n") ++
      appendIf (!isEmpty vp.mIPv6Address)
        ("ifconfig-ipv6 " ++ vp.mIPv6Address.getD [] ++ " " ++ (vp.mIPv6Address.getD []).takeWhile (· ≠ '/') ++ "\n")) ++
    appendIf (vp.mUsePull && vp.mRoutenopull) "route-nopull\n"

def routes : Str :=
  (if vp.mUseDefaultRoute then "route 0.0.0.0 0.0.0.0 vpn_gateway\n".toList
    else
      (getCustomRoutes vp.mCustomRoutes).flatMap (fun route => (routeLine route "vpn_gateway" ++ "\n" : Str)) ++
        (getCustomRoutes vp.mExcludedRoutes).flatMap fun route => (routeLine route "net_gateway" ++ "\n" : Str)) ++
    if vp.mUseDefaultRoutev6 then []
    else (getCustomRoutesv6 vp.mCustomRoutesv6).flatMap fun route => ("route-ipv6 " ++ route ++ "\n" : Str)

def dnsOptions : Str :=
  appendIf (vp.mOverrideDNS || !vp.mUsePull) <|
    appendIf (vp.mDNS1 ≠ []) ("dhcp-option DNS " ++ vp.mDNS1 ++ "\n") ++
      appendIf (vp.mDNS2 ≠ []) ("dhcp-option DNS " ++ vp.mDNS2 ++ "\n") ++
      appendIf (vp.mSearchDomain ≠ []) ("dhcp-option DOMAIN " ++ vp.mSearchDomain ++ "\n")

def sizeOptions : Str :=
  appendIf (vp.mMssFix ≠ 0)
    (if vp.mMssFix ≠ 1450 then "mssfix " ++ number vp.mMssFix ++ if configForOvpn3 then " mtu\n" else "\n"
      else "mssfix\n") ++
    appendIf (vp.mTunMtu ≥ 48 && vp.mTunMtu ≠ 1500) ("tun-mtu " ++ number vp.mTunMtu ++ "\n") ++
    appendIf vp.mNobind "nobind\n"

/-- A profile without connections has no server name to verify. -/
def verifyName : Except Throwable Str :=
  if vp.mRemoteCN = [] then
    match vp.mConnections[0]? with
    | none => .error .arrayIndexOutOfBounds
    | some conn => .ok ("verify-x509-name " ++ openVpnEscape conn.mServerName ++ " name\n")
  else
    let remoteCN := openVpnEscape vp.mRemoteCN
    .ok <| match vp.mX509AuthType with
    | .TLSREMOTE_COMPAT_NOREMAPPING => "compat-names no-remapping\n" ++ "tls-remote " ++ remoteCN ++ "\n"
    | .TLSREMOTE => "tls-remote " ++ remoteCN ++ "\n"
    | .RDN => "verify-x509-name " ++ remoteCN ++ " name\n"
    | .RDN_PREFIX => "verify-x509-name " ++ remoteCN ++ " name-prefix\n"
    | .DN => "verify-x509-name " ++ remoteCN ++ "\n"

def serverOptions : Except Throwable Str :=
  if vp.useTLSClient then do
    let usernameField := appendIf (!isEmpty vp.mx509UsernameField)
      ("x509-username-field " ++ openVpnEscape (vp.mx509UsernameField.getD []) ++ "\n")
    let remote ← if vp.mCheckRemoteCN then vp.verifyName.map (· ++ usernameField) else .ok []
    return remote ++ appendIf vp.mExpectTLSCert "remote-cert-tls server\n"
  else return []

def cipherOptions : Str :=
  appendIf (vp.mDataCiphers ≠ []) ("data-ciphers " ++ vp.mDataCiphers ++ "\n") ++
    appendIf (vp.mCompatMode > 0) ("compat-mode " ++ number (vp.mCompatMode / 10000) ++ "." ++
      number (vp.mCompatMode % 10000 / 100) ++ "." ++ number (vp.mCompatMode % 100) ++ "\n") ++
    appendIf (vp.mCipher ≠ []) ("cipher " ++ vp.mCipher ++ "\n") ++
    appendIf (vp.mAuth ≠ []) ("auth " ++ vp.mAuth ++ "\n")

def obscureOptions : Str :=
  appendIf vp.mUseRandomHostname "#my favorite options :)\nremote-random-hostname\n" ++
    appendIf vp.mUseFloat "float\n" ++
    appendIf vp.mPersistTun ("persist-tun\n" ++
      "# persist-tun also enables pre resolving to avoid DNS resolve problem\n" ++ "preresolve\n") ++
    appendIf vp.mPushPeerInfo "push-peer-info\n" ++
    appendIf (context.usesystemproxy && !configForOvpn3 && !vp.usesExtraProxyOptions)
      ("# Use system proxy setting\n" ++ "management-query-proxy\n")

def customOptions : Str :=
  appendIf vp.mUseCustomConfig ("# Custom configuration options\n" ++ "# You are on your on own here :)\n" ++
    vp.mCustomConfigOptions ++ "\n")

/-! ## The configuration -/

/-- What stands in front of the routes. -/
def optionsBeforeRoutes : Str :=
  vp.managementOptions context configForOvpn3 ++ vp.clientOption ++ vp.retryOptions ++
    vp.plainRemotes configForOvpn3 ++ vp.authenticationOptions context configForOvpn3 ++ vp.peerOptions ++
    vp.tlsAuthOptions ++ vp.ifconfigOptions ++ appendIf vp.mUseDefaultRoutev6 "route-ipv6 ::/0\n"

def getConfigFile : Except Throwable Str := do
  let cfg := vp.optionsBeforeRoutes context configForOvpn3 ++ vp.routes ++ vp.dnsOptions ++ vp.sizeOptions configForOvpn3
  let cfg := cfg ++ (← vp.serverOptions)
  return cfg ++ vp.cipherOptions ++ vp.obscureOptions context configForOvpn3 ++ vp.customOptions ++
    vp.connectionBlocks configForOvpn3

end StoredProfile

/-! ## The check of a profile -/

/-- The resource of the text that names what is wrong. -/
inductive CheckResult
  | no_error_found
  | no_keystore_cert_selected
  | no_ca_cert_selected
  | deprecated_tls_remote
  | ipv4_format_error
  | custom_route_format_error
  | missing_tlsauth
  | missing_certificates
  | remote_no_server_selected
  | openvpn3_nostatickeys
  | openvpn3_pkcs12
  | openvpn3_socksproxy
  | error_orbot_and_proxy_options
  | no_orbotfound
  | bf_cbc_requires_legacy
  deriving DecidableEq, Repr

/-- `toUpperCase`, as far as a comparison with ASCII letters can tell. -/
def toUpperCase (s : Str) : Str := s.map Char.toUpper

namespace StoredProfile

variable (context : Context) (useOpenVPN3 : Bool) (vp : StoredProfile)

def usesKeystore : Bool :=
  vp.mAuthenticationType = .KEYSTORE || vp.mAuthenticationType = .USERPASS_KEYSTORE ||
    vp.mAuthenticationType = .EXTERNAL_APP

def usesCertificates : Bool :=
  vp.mAuthenticationType = .CERTIFICATES || vp.mAuthenticationType = .USERPASS_CERTIFICATES

/-- Routes are given, but not even the first one is well formed. -/
def noRouteConverts (routes : Option Str) : Bool := !isEmpty routes && (getCustomRoutes routes).length = 0

/-- The checks in their order, each with what is returned where it applies. The data ciphers are compared before they
are set. -/
def checks : List (Bool × CheckResult) :=
  let proxyTypes := vp.mConnections.map Connection.mProxyType
  let dataciphers : Str := []
  let dataciphers := if dataciphers ≠ [] then toUpperCase vp.mDataCiphers else dataciphers
  let cipher : Str := if vp.mCipher ≠ [] then toUpperCase vp.mCipher else "BF-CBC"
  [(vp.usesKeystore && vp.mAlias.isNone, .no_keystore_cert_selected),
    (vp.usesCertificates && isEmpty vp.mCaFilename && !vp.mCheckPeerFingerprint, .no_ca_cert_selected),
    (vp.mCheckRemoteCN && vp.mX509AuthType = .TLSREMOTE, .deprecated_tls_remote),
    ((!vp.mUsePull || vp.mAuthenticationType = .STATICKEYS) &&
      (vp.mIPv4Address.bind cidrToIPAndNetmask).isNone, .ipv4_format_error),
    (!vp.mUseDefaultRoute && noRouteConverts vp.mCustomRoutes, .custom_route_format_error),
    (!vp.mUseDefaultRoute && noRouteConverts vp.mExcludedRoutes, .custom_route_format_error),
    (vp.mUseTLSAuth && isEmpty vp.mTLSAuthFilename, .missing_tlsauth),
    (vp.usesCertificates && (isEmpty vp.mClientCertFilename || isEmpty vp.mClientKeyFilename), .missing_certificates),
    (!vp.mConnections.any Connection.mEnabled, .remote_no_server_selected),
    (useOpenVPN3 && vp.mAuthenticationType = .STATICKEYS, .openvpn3_nostatickeys),
    (useOpenVPN3 && (vp.mAuthenticationType = .PKCS12 || vp.mAuthenticationType = .USERPASS_PKCS12), .openvpn3_pkcs12),
    (useOpenVPN3 && (proxyTypes.contains .ORBOT || proxyTypes.contains .SOCKS5), .openvpn3_socksproxy),
    (proxyTypes.contains .ORBOT && vp.usesExtraProxyOptions, .error_orbot_and_proxy_options),
    (proxyTypes.contains .ORBOT && !context.checkTorReceier, .no_orbotfound),
    (!vp.mUseLegacyProvider && (Str.containsStr "BF-CBC" dataciphers ||
      vp.mCompatMode > 0 && vp.mCompatMode < 20500 && cipher = "BF-CBC".toList), .bf_cbc_requires_legacy)]

/-- The first check that applies. -/
def checkProfile : CheckResult := (((vp.checks context useOpenVPN3).find? (·.1)).map (·.2)).getD .no_error_found

end StoredProfile

end AllInSafe.Config
