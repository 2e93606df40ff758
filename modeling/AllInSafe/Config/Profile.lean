import AllInSafe.Config.Escape
import AllInSafe.Config.Numbers

/-!
# Connections and profiles

The fields that the importer writes or the exporter reads. `none` is `null` where the source has it. Then
`getConnectionBlock` of `Connection`, and the two places at which `getConfigFile` of `VpnProfile` writes the connections
of the profile.
-/

namespace AllInSafe.Config
open AllInSafe.Library

inductive ProxyType
  | NONE
  | HTTP
  | SOCKS5
  | ORBOT
  deriving DecidableEq, Repr

structure Connection where
  mServerName : Str := "openvpn.example.com"
  mServerPort : Str := "1194"
  mUseUdp : Bool := true
  mCustomConfiguration : Str := []
  mUseCustomConfig : Bool := false
  mEnabled : Bool := true
  mConnectTimeout : Int := 0
  mProxyType : ProxyType := .NONE
  mProxyName : Str := "proxy.example.com"
  mProxyPort : Str := "8080"
  mUseProxyAuth : Bool := false
  mProxyAuthUser : Option Str := none
  mProxyAuthPassword : Option Str := none
  deriving DecidableEq, Repr

inductive AuthenticationType
  | CERTIFICATES
  | PKCS12
  | KEYSTORE
  | USERPASS
  | STATICKEYS
  | USERPASS_CERTIFICATES
  | USERPASS_PKCS12
  | USERPASS_KEYSTORE
  | EXTERNAL_APP
  deriving DecidableEq, Repr

inductive X509AuthType
  | TLSREMOTE
  | TLSREMOTE_COMPAT_NOREMAPPING
  | DN
  | RDN
  | RDN_PREFIX
  deriving DecidableEq, Repr

inductive AuthRetry
  | NONE_FORGET
  | NONE_KEEP
  | NOINTERACT
  | INTERACT
  deriving DecidableEq, Repr

def DEFAULT_DNS1 : Str := "9.9.9.9"
def DEFAULT_DNS2 : Str := "2620:fe::fe"

structure VpnProfile where
  mAuthenticationType : AuthenticationType := .KEYSTORE
  mName : Str
  mClientCertFilename : Option Str := none
  mTLSAuthDirection : Str := []
  mTLSAuthFilename : Option Str := none
  mClientKeyFilename : Option Str := none
  mCaFilename : Option Str := none
  mUseLzo : Bool := false
  mPKCS12Filename : Option Str := none
  mUseTLSAuth : Bool := false
  mDNS1 : Str := DEFAULT_DNS1
  mDNS2 : Str := DEFAULT_DNS2
  mIPv4Address : Option Str := none
  mIPv6Address : Option Str := none
  mOverrideDNS : Bool := false
  mSearchDomain : Str := "blinkt.de"
  mUseDefaultRoute : Bool := true
  mUsePull : Bool := true
  mCustomRoutes : Option Str := none
  mCheckRemoteCN : Bool := true
  mExpectTLSCert : Bool := false
  mRemoteCN : Str := []
  mPassword : Str := []
  mUsername : Option Str := some []
  mRoutenopull : Bool := false
  mUseRandomHostname : Bool := false
  mUseFloat : Bool := false
  mUseCustomConfig : Bool := false
  mCustomConfigOptions : Str := []
  mVerb : Str := "1"
  mCipher : Str := []
  mNobind : Bool := true
  mUseDefaultRoutev6 : Bool := true
  mCustomRoutesv6 : Str := []
  mPersistTun : Bool := false
  mConnectRetryMax : Str := "-1"
  mConnectRetry : Str := "2"
  mConnectRetryMaxTime : Str := "300"
  mAuth : Str := []
  mX509AuthType : X509AuthType := .RDN
  mx509UsernameField : Option Str := none
  mAllowLocalLAN : Bool := false
  mExcludedRoutes : Option Str := none
  mMssFix : Int := 0
  mConnections : List Connection := [{}]
  mRemoteRandom : Bool := false
  mCrlFilename : Option Str := none
  mAuthRetry : AuthRetry := .NONE_FORGET
  mTunMtu : Int := 0
  mPushPeerInfo : Bool := false
  mServerName : Str := "openvpn.example.com"
  mDataCiphers : Str := []
  mCheckPeerFingerprint : Bool := false
  mPeerFingerPrints : Str := []
  mCompatMode : Int := 0
  mUseLegacyProvider : Bool := false
  mTlSCertProfile : Str := []
  deriving DecidableEq, Repr

def VpnProfile.clearDefaults (np : VpnProfile) : VpnProfile :=
  { np with
    mServerName := "unknown"
    mUsePull := false
    mUseLzo := false
    mUseDefaultRoute := false
    mUseDefaultRoutev6 := false
    mExpectTLSCert := false
    mCheckRemoteCN := false
    mPersistTun := false
    mAllowLocalLAN := true
    mPushPeerInfo := false
    mMssFix := 0
    mNobind := false }


/-! ## The connections of a generated configuration -/

namespace Connection

def usesExtraProxyOptions (c : Connection) : Bool :=
  c.mUseCustomConfig && Str.containsStr "http-proxy-option " c.mCustomConfiguration

def isOnlyRemote (c : Connection) : Bool := c.mCustomConfiguration = [] || !c.mUseCustomConfig

/-- What `%s` writes for a string or `null`. -/
def formatted (s : Option Str) : Str := s.getD "null".toList

def getConnectionBlock (isOpenVPN3 : Bool) (c : Connection) : Str :=
  let cfg : Str := "remote " ++ c.mServerName ++ " " ++ c.mServerPort ++ if c.mUseUdp then " udp\n" else " tcp-client\n"
  let cfg := if c.mConnectTimeout ≠ 0 then cfg ++ " connect-timeout  " ++ (toString c.mConnectTimeout).toList ++ "\n"
    else cfg
  let cfg :=
    if (isOpenVPN3 || c.usesExtraProxyOptions) && c.mProxyType = .HTTP then
      let cfg := cfg ++ "http-proxy " ++ c.mProxyName ++ " " ++ c.mProxyPort ++ "\n"
      if c.mUseProxyAuth then
        cfg ++ "<http-proxy-user-pass>\n" ++ formatted c.mProxyAuthUser ++ "\n" ++ formatted c.mProxyAuthPassword ++
          "\n</http-proxy-user-pass>\n"
      else cfg
    else cfg
  let cfg := if c.usesExtraProxyOptions && c.mProxyType = .SOCKS5 then
      cfg ++ "socks-proxy " ++ c.mProxyName ++ " " ++ c.mProxyPort ++ "\n"
    else cfg
  if c.mCustomConfiguration ≠ [] && c.mUseCustomConfig then cfg ++ c.mCustomConfiguration ++ "\n" else cfg

end Connection

namespace VpnProfile

def canUsePlainRemotes (np : VpnProfile) : Bool :=
  np.mConnections.length = 1 || np.mConnections.all Connection.isOnlyRemote

def remoteRandomLine (np : VpnProfile) : Str := if np.mRemoteRandom then "remote-random\n".toList else []

/-- The connections where `getConfigFile` writes plain remotes, behind `dev tun`. -/
def plainRemotes (isOpenVPN3 : Bool) (np : VpnProfile) : Str :=
  match np.mConnections with
  | [conn] => conn.getConnectionBlock isOpenVPN3
  | conns =>
      np.remoteRandomLine ++
        if np.canUsePlainRemotes then
          conns.flatMap fun conn => if conn.mEnabled then conn.getConnectionBlock isOpenVPN3 else []
        else []

def atTheEnd : Str :=
  "# Connection Options are at the end to allow global options (and global custom options) " ++
    "to influence connection blocks\n"

def inConnectionTags (block : Str) : Str := "<connection>\n" ++ block ++ "</connection>\n"

/-- The connection blocks at the end of the configuration. -/
def connectionBlocks (isOpenVPN3 : Bool) (np : VpnProfile) : Str :=
  if np.canUsePlainRemotes then []
  else atTheEnd ++ np.mConnections.flatMap fun conn =>
    if conn.mEnabled then inConnectionTags (conn.getConnectionBlock isOpenVPN3) else []

/-! ## The entries -/

/-- The connections that are written, in the order of the file, each with its place in the array. -/
def writtenConnections (np : VpnProfile) : List (Nat × Connection) :=
  match np.mConnections with
  | [conn] => [(0, conn)]
  | conns => (conns.zipIdx.map fun e => (e.2, e.1)).filter fun e => e.2.mEnabled

theorem writtenConnections_many {np : VpnProfile} (h : np.mConnections.length ≠ 1) :
    np.writtenConnections = (np.mConnections.zipIdx.map fun e => (e.2, e.1)).filter fun e => e.2.mEnabled := by
  unfold writtenConnections
  split
  case h_1 conn hconns => simp [hconns] at h
  case h_2 => rfl

end VpnProfile

end AllInSafe.Config
