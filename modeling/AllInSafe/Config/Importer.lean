import AllInSafe.Config.Profile
import AllInSafe.Config.Reader

/-!
# From options to a profile

`convertProfile` of `ConfigParser`, one definition for each paragraph of the method.
-/

namespace AllInSafe.Config
open AllInSafe.Library

/-- What the importer takes from the platform: the order in which a `HashMap` is iterated, and how a `Scanner`
reads an integer in the default locale. -/
structure Platform where
  entryOrder : Options → Options
  entryOrder_perm : ∀ options, (entryOrder options).Perm options
  scanInt : Str → Option Int

/-- The message of a `NumberFormatException`. -/
def numberFormatMessage (input : Str) : Str := "For input string: \"" ++ input ++ "\""

/-- A handler for `NumberFormatException`. -/
def catchNumberFormat {α : Type} (message : Str → Str) (m : Except Throwable α) : Except Throwable α :=
  match m with
  | .error (.numberFormat input) => .error (.configParseError (message (numberFormatMessage input)))
  | m => m

/-! ## Looking up options -/

def decimal (n : Nat) : Str := (Nat.repr n).toList

def getAllOption (option : Str) (minarg maxarg : Nat) (options : Options) :
    Except Throwable (Option (List (List Str)) × Options) :=
  match options.find option with
  | none => .ok (none, options)
  | some args =>
      match args.find? fun optionline => optionline.length < minarg + 1 || optionline.length > maxarg + 1 with
      | some optionline =>
          .error (.configParseError ("Option " ++ option ++ " has " ++ decimal (optionline.length - 1) ++
            " parameters, expected between " ++ decimal minarg ++ " and " ++ decimal maxarg))
      | none => .ok (some args, options.remove option)

/-- The last occurrence counts. -/
def getOption (option : Str) (minarg maxarg : Nat) (options : Options) :
    Except Throwable (Option (List Str) × Options) := do
  let (alloptions, options) ← getAllOption option minarg maxarg options
  match alloptions with
  | none => return (none, options)
  | some alloptions =>
      match alloptions.getLast? with
      | none => throw .noSuchElement
      | some args => return (some args, options)

/-- The local variables of `convertProfile`; `conns` is the connection that the blocks start from. -/
structure Conversion where
  parser : ConfigParser
  np : VpnProfile
  noauthtypeset : Bool := true
  conns : Connection := {}

namespace Conversion

def getAllOption (option : Str) (minarg maxarg : Nat) (s : Conversion) :
    Except Throwable (Option (List (List Str)) × Conversion) :=
  (Config.getAllOption option minarg maxarg s.parser.options).map fun (args, options) =>
    (args, { s with parser := { s.parser with options := options } })

def getOption (option : Str) (minarg maxarg : Nat) (s : Conversion) :
    Except Throwable (Option (List Str) × Conversion) :=
  (Config.getOption option minarg maxarg s.parser.options).map fun (args, options) =>
    (args, { s with parser := { s.parser with options := options } })

end Conversion

abbrev Paragraph := Conversion → Except Throwable Conversion

/-- A paragraph about the last occurrence of one option. -/
def onOption (option : Str) (minarg maxarg : Nat)
    (f : List Str → Conversion → Except Throwable Conversion) : Paragraph := fun s => do
  let (args, s) ← s.getOption option minarg maxarg
  match args with
  | none => return s
  | some args => f args s

/-- A paragraph about all occurrences of one option. -/
def onAllOption (option : Str) (minarg maxarg : Nat)
    (f : List (List Str) → Conversion → Except Throwable Conversion) : Paragraph := fun s => do
  let (args, s) ← s.getAllOption option minarg maxarg
  match args with
  | none => return s
  | some args => f args s

/-- An option that only changes the profile. -/
def setting (option : Str) (minarg maxarg : Nat)
    (f : List Str → VpnProfile → Except Throwable VpnProfile) : Paragraph :=
  onOption option minarg maxarg fun args s => do return { s with np := ← f args s.np }

/-- An option without arguments. -/
def flag (option : Str) (f : VpnProfile → VpnProfile) : Paragraph :=
  setting option 0 0 fun _ np => .ok (f np)

/-- An option whose first argument goes into a field. -/
def value (option : Str) (f : Str → VpnProfile → VpnProfile) : Paragraph :=
  setting option 1 1 fun args np => do return f (← get args 1) np

/-! ## The paragraphs -/

namespace Paragraph

def pull : Paragraph := fun s =>
  let options := s.parser.options
  if (options.find "client").isSome || (options.find "pull").isSome then
    .ok { s with
      np := { s.np with mUsePull := true }
      parser := { s.parser with options := (options.remove "pull").remove "client" } }
  else .ok s

def secret : Paragraph :=
  onOption "secret" 1 2 fun secret s => do
    let np := { s.np with
      mAuthenticationType := .STATICKEYS
      mUseTLSAuth := true
      mTLSAuthFilename := some (← get secret 1) }
    let np ← if secret.length = 3 then pure { np with mTLSAuthDirection := ← get secret 2 } else pure np
    return { s with np := np, noauthtypeset := false }

def couldNotParse (netmask : Str) : Throwable :=
  .configParseError ("Could not parse netmask of route " ++ netmask)

def addRoute (np : VpnProfile) (route : List Str) : Except Throwable VpnProfile := do
  let netmask ← if route.length ≥ 3 then get route 2 else pure "255.255.255.255".toList
  let gateway ← if route.length ≥ 4 then get route 3 else pure "vpn_gateway".toList
  let net ← get route 1
  match CIDRIP.ofNetmask net netmask with
  | .error .arrayIndexOutOfBounds => throw (couldNotParse netmask)
  | .error (.numberFormat _) => throw (couldNotParse netmask)
  | .error e => throw e
  | .ok cidr =>
      if gateway = "net_gateway" then
        return { np with mExcludedRoutes := some (np.mExcludedRoutes.getD [] ++ cidr.toString ++ " ") }
      else return { np with mCustomRoutes := some (np.mCustomRoutes.getD [] ++ cidr.toString ++ " ") }

def route : Paragraph :=
  onAllOption "route" 1 4 fun routes s => do
    let np ← routes.foldlM addRoute { s.np with mCustomRoutes := some [], mExcludedRoutes := some [] }
    return { s with np := np }

def route_ipv6 : Paragraph :=
  onAllOption "route-ipv6" 1 4 fun routesV6 s => do
    let routes ← routesV6.mapM fun route => get route 1
    return { s with np := { s.np with mCustomRoutesv6 := routes.flatMap (· ++ " ") } }

def route_nopull : Paragraph := flag "route-nopull" fun np => { np with mRoutenopull := true }

def addTlsAuth (np : VpnProfile) (tlsauth : List Str) : Except Throwable VpnProfile := do
  let file ← get tlsauth 1
  let np := if file ≠ "[inline]" then { np with mTLSAuthFilename := some file, mUseTLSAuth := true } else np
  if tlsauth.length = 3 then return { np with mTLSAuthDirection := ← get tlsauth 2 } else return np

def tls_auth : Paragraph :=
  onAllOption "tls-auth" 1 2 fun tlsauthoptions s => do
    return { s with np := ← tlsauthoptions.foldlM addTlsAuth s.np }

def key_direction : Paragraph :=
  value "key-direction" fun direction np => { np with mTLSAuthDirection := direction }

/-- Both `tls-crypt` and `tls-crypt-v2`. -/
def tls_crypt (crypt : Str) : Paragraph :=
  value crypt fun file np =>
    { np with mUseTLSAuth := true, mTLSAuthFilename := some file, mTLSAuthDirection := crypt }

/-- One parameter of `redirect-gateway`; the flag of the pair is `noIpv4`. -/
def redirectParameter : VpnProfile × Bool → Str → VpnProfile × Bool
  | (np, noIpv4), parameter =>
      if parameter = "block-local" then ({ np with mAllowLocalLAN := false }, noIpv4)
      else if parameter = "unblock-local" then ({ np with mAllowLocalLAN := true }, noIpv4)
      else if parameter = "!ipv4" then (np, true)
      else if parameter = "ipv6" then ({ np with mUseDefaultRoutev6 := true }, noIpv4)
      else (np, noIpv4)

def checkRedirectParameters (np : VpnProfile) (defgw : List (List Str)) (defaultRoute : Bool) : VpnProfile :=
  let (np, noIpv4) :=
    if defaultRoute then defgw.foldl (fun r redirect => redirect.tail.foldl redirectParameter r) (np, false)
    else (np, false)
  if defaultRoute && !noIpv4 then { np with mUseDefaultRoute := true } else np

def redirect_gateway : Paragraph :=
  onAllOption "redirect-gateway" 0 7 fun defgw s => .ok { s with np := checkRedirectParameters s.np defgw true }

def redirect_private : Paragraph :=
  onAllOption "redirect-private" 0 5 fun defgw s => .ok { s with np := checkRedirectParameters s.np defgw false }

/-- An argument of an option that may be missing. -/
def getArg (option : Option (List Str)) (i : Nat) : Except Throwable (Option Str) :=
  match option with
  | none => .ok none
  | some args => (get args i).map some

def dev : Paragraph := fun s => do
  let (dev, s) ← s.getOption "dev" 1 1
  let (devtype, s) ← s.getOption "dev-type" 1 1
  let devtype ← getArg devtype 1
  let dev ← getArg dev 1
  if devtype = some "tun".toList || dev.any (Str.startsWith "tun") || (devtype = none && dev = none) then return s
  else throw (.configParseError "Sorry. Only tun mode is supported. See the FAQ for more detail")

def mssfix : Paragraph :=
  setting "mssfix" 0 2 fun mssfix np => do
    let mMssFix ← if mssfix.length ≥ 2 then
        catchNumberFormat (fun _ => "Argument to --mssfix has to be an integer") (do parseInt (← get mssfix 1))
      else pure 1450
    let mtu ← if mssfix.length ≥ 3 then get mssfix 2 else pure "mtu".toList
    if mtu = "mtu" then return { np with mMssFix := mMssFix }
    else throw (.configParseError "Second argument to --mssfix unkonwn")

def tun_mtu : Paragraph :=
  setting "tun-mtu" 1 1 fun tunmtu np => do
    let mTunMtu ← catchNumberFormat (fun _ => "Argument to --tun-mtu has to be an integer")
      (do parseInt (← get tunmtu 1))
    return { np with mTunMtu := mTunMtu }

def mode : Paragraph :=
  setting "mode" 1 1 fun mode np => do
    if (← get mode 1) = "p2p" then return np
    else throw (.configParseError "Invalid mode for --mode specified, need p2p")

def addDhcpOption (np : VpnProfile) (dhcpoption : List Str) : Except Throwable VpnProfile := do
  let type ← get dhcpoption 1
  let arg ← get dhcpoption 2
  if type = "DOMAIN" then return { np with mSearchDomain := arg }
  else if type = "DNS" then
    if np.mDNS1 = DEFAULT_DNS1 then return { np with mOverrideDNS := true, mDNS1 := arg, mDNS2 := [] }
    else return { np with mOverrideDNS := true, mDNS2 := arg }
  else return np

def dhcp_option : Paragraph :=
  onAllOption "dhcp-option" 2 2 fun dhcpoptions s => do
    return { s with np := ← dhcpoptions.foldlM addDhcpOption s.np }

def ifconfig : Paragraph :=
  setting "ifconfig" 2 2 fun ifconfig np => do
    let ip ← get ifconfig 1
    let mask ← get ifconfig 2
    let cidr ← catchNumberFormat (fun message => "Could not pase ifconfig IP address: " ++ message)
      (CIDRIP.ofNetmask ip mask)
    return { np with mIPv4Address := some cidr.toString }

def remote_random_hostname : Paragraph := flag "remote-random-hostname" fun np => { np with mUseRandomHostname := true }

def float : Paragraph := flag "float" fun np => { np with mUseFloat := true }

def comp_lzo : Paragraph := setting "comp-lzo" 0 1 fun _ np => .ok { np with mUseLzo := true }

def ciphers : Paragraph := fun s => do
  let (ncp_ciphers, s) ← s.getOption "ncp-ciphers" 1 1
  let (data_ciphers, s) ← s.getOption "data-ciphers" 1 1
  let (cipher, s) ← s.getOption "cipher" 1 1
  let ncp_ciphers ← getArg ncp_ciphers 1
  let data_ciphers ← getArg data_ciphers 1
  let cipher ← getArg cipher 1
  return { s with np := { s.np with
    mCipher := cipher.getD s.np.mCipher
    mDataCiphers := (data_ciphers.or ncp_ciphers).getD s.np.mDataCiphers } }

def certProfiles : List Str := ["insecure", "preferred", "legacy", "suiteb"]

def tls_cert_profile : Paragraph :=
  setting "tls-cert-profile" 1 1 fun tls_cert_profile np => do
    let profile ← get tls_cert_profile 1
    let np := if certProfiles.contains profile then { np with mTlSCertProfile := profile } else np
    if profile = np.mTlSCertProfile then return np
    else throw (.configParseError ("Invalid tls-cert-profile '" ++ profile ++ "'"))

/-- `toLowerCase`, as far as a comparison with ASCII letters needs it. -/
def toLowerCase (s : Str) : Str := s.map Char.toLower

def provider : Paragraph :=
  setting "provider" 1 9 fun provider np => do
    let providers := toLowerCase (← get provider 1)
    if providers = "legacy:default" || providers = "default:legacy" ||
        provider.any fun prov => toLowerCase prov = "legacy" then
      return { np with mUseLegacyProvider := true }
    else return np

/-- `nextInt` of the version scanner: at most one delimiter is skipped, and the token ends before the next one. -/
def nextInt (pf : Platform) (input : Str) : Except Throwable (Int × Str) :=
  let input := if Str.startsWith "." input then input.drop 1 else input
  if input = [] then .error .noSuchElement
  else match pf.scanInt (input.takeWhile (· ≠ '.')) with
    | none => .error .noSuchElement
    | some n => .ok (n, input.dropWhile (· ≠ '.'))

def compat_mode (pf : Platform) : Paragraph :=
  setting "compat-mode" 1 1 fun compatmode np => do
    let (major, input) ← nextInt pf (← get compatmode 1)
    let (minor, input) ← nextInt pf input
    let (patch, _) ← nextInt pf input
    return { np with mCompatMode := wrap 32 (major * 10000 + minor * 100 + patch) }

def auth : Paragraph := value "auth" fun auth np => { np with mAuth := auth }

def ca : Paragraph := value "ca" fun ca np => { np with mCaFilename := some ca }

def peer_fingerprint : Paragraph :=
  onAllOption "peer-fingerprint" 1 1 fun peerfp s => do
    let fps ← peerfp.mapM fun fp => get fp 1
    let line := fun fp : Str =>
      (if Str.startsWith INLINE_TAG fp then fp.drop INLINE_TAG.length else fp) ++ "
"
    return { s with np := { s.np with
      mCheckPeerFingerprint := true
      mPeerFingerPrints := s.np.mPeerFingerPrints ++ fps.flatMap line } }

def cert : Paragraph :=
  onOption "cert" 1 1 fun cert s => do
    let np := { s.np with mClientCertFilename := some (← get cert 1), mAuthenticationType := .CERTIFICATES }
    return { s with np := np, noauthtypeset := false }

def key : Paragraph := value "key" fun key np => { np with mClientKeyFilename := some key }

def pkcs12 : Paragraph :=
  onOption "pkcs12" 1 1 fun pkcs12 s => do
    let np := { s.np with mPKCS12Filename := some (← get pkcs12 1), mAuthenticationType := .KEYSTORE }
    return { s with np := np, noauthtypeset := false }

def cryptoapicert : Paragraph :=
  onOption "cryptoapicert" 1 1 fun _ s =>
    .ok { s with np := { s.np with mAuthenticationType := .KEYSTORE }, noauthtypeset := false }

def tls_remote : Paragraph := fun s => do
  let (compatnames, s) ← s.getOption "compat-names" 1 2
  let (nonameremapping, s) ← s.getOption "no-name-remapping" 1 1
  let (tlsremote, s) ← s.getOption "tls-remote" 1 1
  match ← getArg tlsremote 1 with
  | none => return s
  | some tlsremote =>
      let noremapping := compatnames.any (fun compatnames => compatnames.length > 2) || nonameremapping.isSome
      return { s with np := { s.np with
        mRemoteCN := tlsremote
        mCheckRemoteCN := true
        mX509AuthType := if noremapping then .TLSREMOTE_COMPAT_NOREMAPPING else .TLSREMOTE } }

def x509AuthType (type : Str) : Except Throwable X509AuthType :=
  if type = "name" then .ok .RDN
  else if type = "subject" then .ok .DN
  else if type = "name-prefix" then .ok .RDN_PREFIX
  else .error (.configParseError ("Unknown parameter to verify-x509-name: " ++ type))

def verify_x509_name : Paragraph :=
  setting "verify-x509-name" 1 2 fun verifyx509name np => do
    let mRemoteCN ← get verifyx509name 1
    let mX509AuthType ← if verifyx509name.length > 2 then x509AuthType (← get verifyx509name 2) else pure .DN
    return { np with mRemoteCN := mRemoteCN, mCheckRemoteCN := true, mX509AuthType := mX509AuthType }

def x509_username_field : Paragraph :=
  value "x509-username-field" fun field np => { np with mx509UsernameField := some field }

def verb : Paragraph := value "verb" fun verb np => { np with mVerb := verb }

def nobind : Paragraph := flag "nobind" fun np => { np with mNobind := true }

def persist_tun : Paragraph := flag "persist-tun" fun np => { np with mPersistTun := true }

def push_peer_info : Paragraph := flag "push-peer-info" fun np => { np with mPushPeerInfo := true }

def connect_retry : Paragraph :=
  setting "connect-retry" 1 2 fun connectretry np => do
    let np := { np with mConnectRetry := ← get connectretry 1 }
    if connectretry.length > 2 then return { np with mConnectRetryMaxTime := ← get connectretry 2 } else return np

def connect_retry_max : Paragraph := value "connect-retry-max" fun max np => { np with mConnectRetryMax := max }

/-- Another value than `server` goes back to the table, under another name. -/
def remote_cert_tls : Paragraph :=
  onAllOption "remote-cert-tls" 1 1 fun remotetls s => do
    match remotetls.head? with
    | none => throw .arrayIndexOutOfBounds
    | some remote =>
        if (← get remote 1) = "server" then return { s with np := { s.np with mExpectTLSCert := true } }
        else return { s with parser := { s.parser with options := s.parser.options.put "remotetls" remotetls } }

/-- The first two lines of embedded data. -/
def embeddedPair (inlinedata : Str) : Option (Str × Str) :=
  match Str.split (· = '\n') (getEmbeddedContent inlinedata) with
  | user :: password :: _ => some (user, password)
  | _ => none

def useEmbbedUserAuth (np : VpnProfile) (inlinedata : Str) : VpnProfile :=
  match embeddedPair inlinedata with
  | some (user, password) => { np with mUsername := some user, mPassword := password }
  | none => np

def auth_user_pass : Paragraph :=
  onOption "auth-user-pass" 0 1 fun authuser s => do
    let mAuthenticationType := if s.noauthtypeset then .USERPASS
      else match s.np.mAuthenticationType with
        | .CERTIFICATES => .USERPASS_CERTIFICATES
        | .KEYSTORE => .USERPASS_KEYSTORE
        | type => type
    let s := { s with np := { s.np with mAuthenticationType := mAuthenticationType } }
    if authuser.length > 1 then
      let file ← get authuser 1
      let parser := if Str.startsWith INLINE_TAG file then s.parser
        else { s.parser with auth_user_pass_file := some file }
      return { s with parser := parser, np := useEmbbedUserAuth { s.np with mUsername := none } file }
    else return s

def auth_retry : Paragraph :=
  setting "auth-retry" 1 1 fun authretry np => do
    let retry ← get authretry 1
    if retry = "none" then return { np with mAuthRetry := .NONE_FORGET }
    else if retry = "nointeract" then return { np with mAuthRetry := .NOINTERACT }
    else if retry = "interact" then return { np with mAuthRetry := .NOINTERACT }
    else throw (.configParseError ("Unknown parameter to auth-retry: " ++ (← get authretry 2)))

/-- `join` with a space. -/
def joinSpace (str : List Str) : Str := (str.intersperse [' ']).flatten

def crl_verify : Paragraph :=
  setting "crl-verify" 1 2 fun crlfile np => do
    let type ← if crlfile.length = 3 then get crlfile 2 else pure []
    if type = "dir" then return { np with mCustomConfigOptions := np.mCustomConfigOptions ++ joinSpace crlfile ++ "
" }
    else return { np with mCrlFilename := some (← get crlfile 1) }

end Paragraph

/-! ## Connections -/

def connectionOptions : List Str :=
  ["local", "remote", "float", "port", "connect-retry", "connect-timeout", "connect-retry-max", "link-mtu", "tun-mtu",
    "tun-mtu-extra", "fragment", "mtu-disc", "local-port", "remote-port", "bind", "nobind", "proto", "http-proxy",
    "http-proxy-retry", "http-proxy-timeout", "http-proxy-option", "socks-proxy", "socks-proxy-retry",
    "http-proxy-user-pass", "explicit-exit-notify"]

def isUdpProto (proto : Str) : Except Throwable Bool :=
  if proto = "udp" || proto = "udp4" || proto = "udp6" then .ok true
  else if proto = "tcp-client" || proto = "tcp" || proto = "tcp4" || Str.endsWith "tcp4-client" proto ||
      proto = "tcp6" || Str.endsWith "tcp6-client" proto then .ok false
  else .error (.configParseError ("Unsupported option to --proto " ++ proto))

def useEmbbedHttpAuth (c : Connection) (inlinedata : Str) : Connection :=
  match Paragraph.embeddedPair inlinedata with
  | some (user, password) =>
      { c with mProxyAuthUser := some user, mProxyAuthPassword := some password, mUseProxyAuth := true }
  | none => c

def connectTimeout (timeout : Str) : Except Throwable Int :=
  catchNumberFormat (fun message =>
    "Argument to connect-timeout (" ++ timeout ++ ") must to be an integer: " ++ message) (parseInt timeout)

/-- SOCKS has a default port, HTTP always sets one. -/
def setProxy (conn : Connection) (proxy : List Str) : Except Throwable Connection := do
  let conn := if (← get proxy 0) = "socks-proxy" then { conn with mProxyType := .SOCKS5, mProxyPort := "1080" }
    else { conn with mProxyType := .HTTP }
  let conn := { conn with mProxyName := ← get proxy 1 }
  if proxy.length ≥ 3 then return { conn with mProxyPort := ← get proxy 2 } else return conn

/-- The cases of the switch fall through from the longest one. -/
def remoteConnection (conn : Connection) (remote : List Str) : Except Throwable Connection := do
  let conn ← if remote.length = 4 then pure { conn with mUseUdp := ← isUdpProto (← get remote 3) } else pure conn
  let conn ← if remote.length = 4 || remote.length = 3 then pure { conn with mServerPort := ← get remote 2 }
    else pure conn
  if remote.length = 4 || remote.length = 3 || remote.length = 2 then
    return { conn with mServerName := ← get remote 1 }
  else return conn

/-- The options that go into the custom configuration of the connection, in the order of the table. -/
def connectionCustomOptions (pf : Platform) (connDefault : Option Connection) (options : Options) : Options :=
  (pf.entryOrder options).filter fun option => connDefault.isSome || connectionOptions.contains option.1

/-- The connection of the options themselves, before its custom configuration, and the proxy options. -/
def connectionSettings (conn : Connection) (options : Options) : Except Throwable (Connection × Options) := do
  let (port, options) ← getOption "port" 1 1 options
  let (rport, options) ← getOption "rport" 1 1 options
  let (proto, options) ← getOption "proto" 1 1 options
  let port ← Paragraph.getArg port 1
  let rport ← Paragraph.getArg rport 1
  let conn := { conn with mServerPort := (rport.or port).getD conn.mServerPort }
  let conn ← match ← Paragraph.getArg proto 1 with
    | none => pure conn
    | some proto => pure { conn with mUseUdp := ← isUdpProto proto }
  let (timeout, options) ← getOption "connect-timeout" 1 1 options
  let conn ← match ← Paragraph.getArg timeout 1 with
    | none => pure conn
    | some timeout => pure { conn with mConnectTimeout := ← connectTimeout timeout }
  return (conn, options)

/-- An HTTP proxy is only looked up where there is no SOCKS proxy. -/
def connectionProxy (conn : Connection) (options : Options) : Except Throwable (Connection × Options) := do
  let (socks, options) ← getOption "socks-proxy" 1 2 options
  let (proxy, options) ← match socks with
    | none => getOption "http-proxy" 2 2 options
    | some socks => pure (some socks, options)
  let conn ← match proxy with
    | none => pure conn
    | some proxy => setProxy conn proxy
  let (httpproxyauthhttp, options) ← getOption "http-proxy-user-pass" 1 1 options
  match ← Paragraph.getArg httpproxyauthhttp 1 with
  | none => return (conn, options)
  | some inlinedata => return (useEmbbedHttpAuth conn inlinedata, options)

/-- The connection without a remote, and one connection for each remote. -/
def parseConnectionOptions (pf : Platform) (connDefault : Option Connection) (options : Options) :
    Except Throwable ((Connection × List Connection) × Options) := do
  let (conn, options) ← connectionSettings (connDefault.getD {}) options
  let (conn, options) ← connectionProxy conn options
  let (remotes, options) ← getAllOption "remote" 1 3 options
  let custom := connectionCustomOptions pf connDefault options
  let conn := { conn with
    mCustomConfiguration := conn.mCustomConfiguration ++ custom.flatMap fun option => getOptionStrings option.2 }
  let options := custom.foldl (fun options option => options.remove option.1) options
  let conn := if Str.trim conn.mCustomConfiguration = [] then conn else { conn with mUseCustomConfig := true }
  let connections ← (remotes.getD []).mapM (remoteConnection conn)
  return ((conn, connections), options)

/-- A connection block is read as a configuration of its own. -/
def parseConnection (pf : Platform) (connection : Str) (defaultValues : Connection) :
    Except Throwable (Connection × List Connection) := do
  if connection.length < INLINE_TAG.length then throw .stringIndexOutOfBounds
  else
    let parser ← parseConfig { text := connection.drop INLINE_TAG.length } {}
    let (conns, _) ← parseConnectionOptions pf (some defaultValues) parser.options
    return conns

def connectionOfBlock (pf : Platform) (conns : Connection) (conn : List Str) : Except Throwable Connection := do
  let (_, connections) ← parseConnection pf (← get conn 1) conns
  match connections with
  | [connection] => return connection
  | _ => throw (.configParseError "A <connection> block must have exactly one remote")

namespace Paragraph

def remotes (pf : Platform) : Paragraph := fun s => do
  let ((conns, connections), options) ← parseConnectionOptions pf none s.parser.options
  return { s with
    conns := conns
    np := { s.np with mConnections := connections }
    parser := { s.parser with options := options } }

def connection (pf : Platform) : Paragraph :=
  onAllOption "connection" 1 1 fun connectionBlocks s => do
    if s.np.mConnections.length > 0 then
      throw (.configParseError "Using a <connection> block and --remote is not allowed.")
    else
      let connections ← connectionBlocks.mapM (connectionOfBlock pf s.conns)
      return { s with np := { s.np with mConnections := connections } }

def remote_random : Paragraph := flag "remote-random" fun np => { np with mRemoteRandom := true }

def disable (disableUDP : Bool) (conn : Connection) : Connection :=
  if conn.mUseUdp = disableUDP then { conn with mEnabled := false } else conn

def proto_force : Paragraph :=
  setting "proto-force" 1 1 fun protoforce np => do
    let protoToDisable ← get protoforce 1
    if protoToDisable = "udp" then return { np with mConnections := np.mConnections.map (disable true) }
    else if protoToDisable = "tcp" then return { np with mConnections := np.mConnections.map (disable false) }
    else throw (.configParseError ("Unknown protocol " ++ protoToDisable ++ " in proto-force"))

/-- The second part of an entry of the Access Server. -/
def metaValue (parser : ConfigParser) (key : Str) : Option Str :=
  ((parser.meta_.find? fun e => e.1 = key).bind fun e => e.2[1]?)

def accessServerNames : Paragraph := fun s =>
  let name := (metaValue s.parser "FRIENDLY_NAME").or (metaValue s.parser "PROFILE")
  .ok { s with np := { s.np with
    mName := name.getD s.np.mName
    mUsername := (metaValue s.parser "USERNAME").or s.np.mUsername } }

/-! ## Custom options -/

def unsupportedOptions : List Str := ["config", "tls-server"]

def ignoreOptions : List Str :=
  List.map String.toList ["tls-client", "allow-recursive-routing", "askpass", "auth-nocache", "up", "down",
    "route-up", "ipchange", "route-pre-down", "auth-user-pass-verify", "block-outside-dns",
    "client-cert-not-required", "dhcp-release", "dhcp-renew", "dh", "group", "ip-win32",
    "ifconfig-nowarn", "management-hold", "management", "management-client", "management-query-remote",
    "management-query-passwords", "management-query-proxy", "management-external-key",
    "management-forget-disconnect", "management-signal", "management-log-cache", "management-up-down",
    "management-client-user", "management-client-group", "pause-exit", "preresolve", "plugin",
    "machine-readable-output", "persist-key", "push", "register-dns", "route-delay", "route-gateway", "route-metric",
    "route-method", "status", "script-security", "show-net-up", "suppress-timestamps", "tap-sleep", "tmp-dir",
    "tun-ipv6", "topology", "user", "win-sys"]

def checkIgnoreAndInvalidOptions (pf : Platform) : Paragraph := fun s => do
  match unsupportedOptions.find? fun option => (s.parser.options.find option).isSome with
  | some option =>
      throw (.configParseError ("Unsupported Option " ++ option ++ " encountered in config file. Aborting"))
  | none =>
      let options := ignoreOptions.foldl Options.remove s.parser.options
      let s := { s with parser := { s.parser with options := options } }
      let values := pf.entryOrder options
      if values.any fun option => option.2.any fun optionsline => !ignoreThisOption optionsline then
        return { s with np := { s.np with
          mCustomConfigOptions := "# These options found in the config file do not map to config settings:\n" ++
            s.np.mCustomConfigOptions ++ values.flatMap fun option => getOptionStrings option.2
          mUseCustomConfig := true } }
      else return s

def fixup : Paragraph := fun s =>
  .ok (if s.np.mRemoteCN = s.np.mServerName then { s with np := { s.np with mRemoteCN := [] } } else s)

end Paragraph

/-! ## convertProfile -/

open Paragraph in
/-- The paragraphs of `convertProfile` in their order. -/
def paragraphs (pf : Platform) : List Paragraph :=
  [pull, secret, route, route_ipv6, route_nopull, tls_auth, key_direction, tls_crypt "tls-crypt",
    tls_crypt "tls-crypt-v2", redirect_gateway, redirect_private, dev, mssfix, tun_mtu, mode, dhcp_option, ifconfig,
    remote_random_hostname, float, comp_lzo, ciphers, tls_cert_profile, provider, compat_mode pf, auth, ca,
    peer_fingerprint, cert, key, pkcs12, cryptoapicert, tls_remote, verify_x509_name, x509_username_field, verb, nobind,
    persist_tun, push_peer_info, connect_retry, connect_retry_max, remote_cert_tls, auth_user_pass, auth_retry,
    crl_verify, remotes pf, connection pf, remote_random, proto_force, accessServerNames,
    checkIgnoreAndInvalidOptions pf, fixup]

def CONVERTED_PROFILE : Str := "converted Profile"

def runParagraphs : List Paragraph → Conversion → Except Throwable Conversion
  | [], s => .ok s
  | p :: ps, s => (p s).bind (runParagraphs ps)

def convertProfile (pf : Platform) (parser : ConfigParser) : Except Throwable Conversion :=
  runParagraphs (paragraphs pf) { parser := parser, np := ({ mName := CONVERTED_PROFILE } : VpnProfile).clearDefaults }

/-- What an import does with a character stream. -/
def importConfig (pf : Platform) (reader : Reader) : Except Throwable VpnProfile := do
  let parser ← parseConfig reader {}
  let s ← convertProfile pf parser
  return s.np

end AllInSafe.Config
