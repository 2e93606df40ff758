import AllInSafe.Config.Importer
import AllInSafe.Proxy.Model
import AllInSafe.Routes.Model

/-!
# The configuration of the tun device

What `OpenVPNService` collects while OpenVPN pushes its settings, and `processNeedCommand` of `OpenVpnManagementThread`,
which takes them from the management interface.
-/

namespace AllInSafe.Tun
open AllInSafe.Library AllInSafe.Config
open AllInSafe.Routes (IpAddress NetworkSpace Inet6Address)

/-! ## What the system does -/

/-- What the functions may throw; `parsing` stands for the exceptions of numbers, arrays and strings. -/
inductive Thrown
  | parsing (e : Throwable)
  | classCast
  | illegalState
  deriving DecidableEq, Repr

abbrev Result (α : Type) := Except Thrown α

instance : MonadLift (Except Throwable) (Except Thrown) := ⟨Except.mapError .parsing⟩

inductive InetAddress
  | inet4 (getAddress : List UInt8)
  | inet6 (address : Inet6Address)
  deriving DecidableEq, Repr

/-- The system that the service runs in, over any type of proxies. -/
structure Android (π : Type) where
  /-- Whether assertions are checked. -/
  debug : Bool
  /-- The first address that `InetAddress.getAllByName` finds; `none` is an `UnknownHostException`. -/
  getAllByName : Str → Option InetAddress
  /-- `none` is an exception. -/
  buildDirectProxy : Str → Int → Option π
  proxyText : π → Str
  /-- The networks that the device is in, as `NetworkUtils.getLocalNetworks` gives them. -/
  getLocalNetworks : (ipv6 : Bool) → List Str
  doUseOpenVPN3 : Bool
  /-- `mProfile.mAllowLocalLAN`; `none` where `mProfile` is null. -/
  mAllowLocalLAN : Option Bool
  /-- Whether the `Builder` establishes a device for the configuration and its descriptor reaches OpenVPN. -/
  tunSent : Bool

/-! ## Addresses -/

/-- `%d` of an integer. -/
def decimalInt (n : Int) : Str := (toString n).toList

/-- The text of an address after `normalise`. -/
def dottedText (newip : Int) : Str :=
  decimalInt (newip / 2 ^ 24) ++ "." ++ decimalInt (newip / 2 ^ 16 % 256) ++ "." ++
    decimalInt (newip / 2 ^ 8 % 256) ++ "." ++ decimalInt (newip % 256)

/-- Whether host bits were set, and the address without them. -/
def normalise (ip : CIDRIP) : Except Throwable (Bool × CIDRIP) := do
  let n ← CIDRIP.getInt ip.mIp
  let newip := (BitVec.ofInt 64 n &&& (0xffffffff#64 <<< (32 - ip.len))).toInt
  return if newip ≠ n then (true, { ip with mIp := dottedText newip }) else (false, ip)

/-- The net of an address text; no text that is pushed has a negative value. -/
def netOf (ip : CIDRIP) (included : Bool) : Except Throwable IpAddress := do
  return .ofCIDRIP ⟨(← CIDRIP.getInt ip.mIp).toNat, ip.len⟩ included

/-- `containsNet`. -/
def containsNet (ip network : IpAddress) : Bool :=
  ip.getFirstAddress ≤ network.getFirstAddress && network.getLastAddress ≤ ip.getLastAddress

def hex (n : Nat) : Str := Nat.toDigits 16 n

/-- The loop over the groups of an IPv6 address from the last one on; no group is left when the fuel is. -/
def ipv6Loop : (fuel r : Nat) → (ipv6str : Option Str) → (lastPart : Bool) → Option Str
  | 0, _, ipv6str, _ => ipv6str
  | fuel + 1, r, ipv6str, lastPart =>
      if r = 0 then ipv6str
      else
        let part := r % 0x10000
        let ipv6str :=
          if ipv6str.isSome || part ≠ 0 then
            let ipv6str := if ipv6str.isNone && !lastPart then some ":".toList else ipv6str
            if lastPart then some (hex part) else some (hex part ++ ":" ++ ipv6str.getD [])
          else none
        ipv6Loop fuel (r / 2 ^ 16) ipv6str false

def getIPv6Address (netAddress : Nat) : Str :=
  (ipv6Loop netAddress netAddress none true).getD "::"

def getIPv4Address (ip : Nat) : Str :=
  decimal (ip / 2 ^ 24 % 256) ++ "." ++ decimal (ip / 2 ^ 16 % 256) ++ "." ++ decimal (ip / 2 ^ 8 % 256) ++ "." ++
    decimal (ip % 256)

/-- `IpAddress.toString` without the assertions. -/
def netText (ip : IpAddress) : Str :=
  (if ip.isV4 then getIPv4Address ip.netAddress else getIPv6Address ip.netAddress) ++ "/" ++ decimal ip.networkMask

/-- The assertion of a debug build, that an IPv4 address has 32 bits. -/
def netTextChecked (debug : Bool) (ip : IpAddress) : Result Str :=
  if debug && ip.isV4 && 0xffffffff < ip.netAddress then throw .illegalState else return netText ip

/-! ## TunConfig -/

structure TunConfig (π : Type) where
  mDnslist : List Str := []
  mRoutes : NetworkSpace := {}
  mRoutesv6 : NetworkSpace := {}
  mSearchDomainList : List Str := []
  mLocalIP : Option CIDRIP := none
  mMtu : Int := 0
  mLocalIPv6 : Option Str := none
  mProxyInfo : Option π := none

variable {π : Type}

/-- The fields of `OpenVPNService` that the functions use. -/
structure OpenVPNService (π : Type) where
  tunConfig : TunConfig π := {}
  mLastTunCfg : Option (TunConfig π) := none
  mRemoteGW : Option Str := none

/-- `TextUtils.join("|", …)`. -/
def joined (texts : List Str) : Str := List.intercalate "|".toList texts

def getNetworks (space : NetworkSpace) (included : Bool) : List IpAddress :=
  space.mIpAddresses.filter fun ip => ip.included = included

def networksText (debug : Bool) (space : NetworkSpace) (included : Bool) : Result Str := do
  return joined (← (getNetworks space included).mapM (netTextChecked debug))

def getTunConfigString (android : Android π) : Option (TunConfig π) → Result Str
  | none => return "NULL"
  | some tc => do
      let cfg : Str := "TUNCFG UNQIUE STRING ips:"
      let cfg := cfg ++ (tc.mLocalIP.elim [] CIDRIP.toString) ++ tc.mLocalIPv6.getD []
      let cfg := cfg ++ "routes: " ++ (← networksText android.debug tc.mRoutes true) ++
        (← networksText android.debug tc.mRoutesv6 true)
      let cfg := cfg ++ "excl. routes:" ++ (← networksText android.debug tc.mRoutes false) ++
        (← networksText android.debug tc.mRoutesv6 false)
      let cfg := cfg ++ "dns: " ++ joined tc.mDnslist
      let cfg := cfg ++ "domain: " ++ joined tc.mSearchDomainList
      let cfg := cfg ++ "mtu: " ++ decimalInt tc.mMtu
      return cfg ++ "proxyInfo: " ++ tc.mProxyInfo.elim "null".toList android.proxyText

namespace OpenVPNService

variable (android : Android π)

def VPNSERVICE_TUN : Str := "vpnservice-tun"

def isAndroidTunDevice (device : Option Str) : Bool :=
  device.any fun device => Str.startsWith "tun" device || device = "(null)".toList || device = VPNSERVICE_TUN

def addDNS (dns : Str) (s : OpenVPNService π) : OpenVPNService π :=
  { s with tunConfig := { s.tunConfig with mDnslist := s.tunConfig.mDnslist ++ [dns] } }

def addSearchDomain (domain : Str) (s : OpenVPNService π) : OpenVPNService π :=
  { s with tunConfig := { s.tunConfig with mSearchDomainList := s.tunConfig.mSearchDomainList ++ [domain] } }

/-- A proxy that is refused is only logged. -/
def addHttpProxy (proxy : Str) (port : Int) (s : OpenVPNService π) : OpenVPNService π :=
  match android.buildDirectProxy proxy port with
  | some proxyInfo => { s with tunConfig := { s.tunConfig with mProxyInfo := some proxyInfo } }
  | none => s

/-- A net is put into `mRoutes`. -/
def addNet (net : IpAddress) (s : OpenVPNService π) : OpenVPNService π :=
  { s with tunConfig := { s.tunConfig with mRoutes := ⟨Routes.treeSetAdd net s.tunConfig.mRoutes.mIpAddresses⟩ } }

/-- `addRoute` with a net. -/
def addRouteNet (route : CIDRIP) (included : Bool) (s : OpenVPNService π) : Except Throwable (OpenVPNService π) := do
  return s.addNet (← netOf route included)

/-- `addRoute` with four texts; a route in front of the local address is only logged. -/
def addRoute (dest mask gateway : Str) (device : Option Str) (s : OpenVPNService π) :
    Except Throwable (OpenVPNService π) := do
  let route ← CIDRIP.ofNetmask dest mask
  let gatewayIP ← netOf ⟨gateway, 32⟩ false
  match s.tunConfig.mLocalIP with
  | none => return s
  | some mLocalIP =>
      let localNet ← netOf mLocalIP true
      let included := isAndroidTunDevice device || containsNet localNet gatewayIP ||
        gateway = "255.255.255.255".toList || some gateway = s.mRemoteGW
      let (_, route) ← normalise route
      s.addRouteNet route included

/-- The net of an IPv6 route; an unknown host has none. -/
def net6Of (network : Str) (included : Bool) : Result (Option IpAddress) := do
  let v6parts := Str.split (· = '/') network
  match android.getAllByName (← get v6parts 0) with
  | none => return none
  | some (.inet4 _) => throw .classCast
  | some (.inet6 ip) =>
      -- No text that is pushed has a negative prefix length.
      let mask ← parseInt (← get v6parts 1)
      return some (.ofInet6Address ip mask.toNat included)

/-- A net is put into `mRoutesv6`. -/
def addNet6 (net : IpAddress) (s : OpenVPNService π) : OpenVPNService π :=
  { s with tunConfig := { s.tunConfig with mRoutesv6 := ⟨Routes.treeSetAdd net s.tunConfig.mRoutesv6.mIpAddresses⟩ } }

def addRoutev6 (network : Str) (included : Bool) (s : OpenVPNService π) : Result (OpenVPNService π) := do
  match ← net6Of android network included with
  | none => return s
  | some net => return s.addNet6 net

/-- `addRoutev6` with a device. -/
def addRoutev6Device (network device : Str) (s : OpenVPNService π) : Result (OpenVPNService π) :=
  s.addRoutev6 android network (isAndroidTunDevice (some device))

def setMtu (mtu : Int) (s : OpenVPNService π) : OpenVPNService π :=
  { s with tunConfig := { s.tunConfig with mMtu := mtu } }

def setLocalIPv6 (ipv6addr : Str) (s : OpenVPNService π) : OpenVPNService π :=
  { s with tunConfig := { s.tunConfig with mLocalIPv6 := some ipv6addr } }

/-- The prefix length of a local address whose netmask may be the address of the other end. -/
def localLen (mLocalIP : CIDRIP) (netmask mode : Str) : Except Throwable Nat := do
  let netMaskAsInt ← CIDRIP.getInt netmask
  if mLocalIP.len = 32 && netmask ≠ "255.255.255.255".toList then
    let masklen := if mode = "net30".toList then 30 else 31
    -- The constants of the source are negative `int`s.
    let mask := BitVec.ofInt 64 (if mode = "net30".toList then -4 else -2)
    let ip ← CIDRIP.getInt mLocalIP.mIp
    return if BitVec.ofInt 64 netMaskAsInt &&& mask = BitVec.ofInt 64 ip &&& mask then masklen else 32
  else return mLocalIP.len

def setLocalIP (ip netmask : Str) (mtu : Int) (mode : Str) (s : OpenVPNService π) :
    Except Throwable (OpenVPNService π) := do
  let mLocalIP ← CIDRIP.ofNetmask ip netmask
  let mLocalIP := { mLocalIP with len := ← localLen mLocalIP netmask mode }
  let s := { s with tunConfig := { s.tunConfig with mLocalIP := some mLocalIP, mMtu := mtu } }
  -- Android does not route traffic to the network of the VPN itself.
  let s ← if mLocalIP.len ≤ 31 then do
      let (_, interfaceRoute) ← normalise mLocalIP
      s.addRouteNet interfaceRoute true
    else pure s
  return { s with mRemoteGW := some netmask }

/-! ## Opening the device -/

/-- The text of an IPv4 network of the device. -/
def localCIDR (net : Str) : Except Throwable CIDRIP := do
  let netparts := Str.split (· = '/') net
  let ipAddr ← get netparts 0
  return ⟨ipAddr, (← parseInt (← get netparts 1)).toNat⟩

def addLocalNetwork (mAllowLocalLAN : Bool) (mLocalIP : CIDRIP) (net : Str) (s : OpenVPNService π) :
    Except Throwable (OpenVPNService π) := do
  let cidr ← localCIDR net
  if cidr.mIp = mLocalIP.mIp then return s
  else if mAllowLocalLAN then s.addRouteNet cidr false
  else return s

def addLocalNetworksToRoutes (mAllowLocalLAN : Bool) (mLocalIP : CIDRIP) (s : OpenVPNService π) :
    Result (OpenVPNService π) := do
  let s ← (android.getLocalNetworks false).foldlM (fun s net => s.addLocalNetwork mAllowLocalLAN mLocalIP net) s
  if mAllowLocalLAN then
    (android.getLocalNetworks true).foldlM (fun s net => s.addRoutev6 android net false) s
  else return s

/-- Whether `openTun` comes to the `Builder` at all. -/
def canOpen (s : OpenVPNService π) : Bool :=
  android.mAllowLocalLAN.isSome && (s.tunConfig.mLocalIP.isSome || s.tunConfig.mLocalIPv6.isSome)

/-- What `openTun` changes in the configuration that it opens; the `Builder` only reads it. -/
def prepareTun (s : OpenVPNService π) : Result (OpenVPNService π) :=
  match android.mAllowLocalLAN, s.tunConfig.mLocalIP with
  | some mAllowLocalLAN, some mLocalIP =>
      if android.doUseOpenVPN3 then return s else s.addLocalNetworksToRoutes android mAllowLocalLAN mLocalIP
  | _, _ => return s

def openTun (s : OpenVPNService π) : Result (OpenVPNService π) := do
  let s ← s.prepareTun android
  return { s with mLastTunCfg := some s.tunConfig, tunConfig := {} }

def getTunReopenStatus (s : OpenVPNService π) : Result Str := do
  let currentConfiguration ← getTunConfigString android (some s.tunConfig)
  return if currentConfiguration = (← getTunConfigString android s.mLastTunCfg) then "NOACTION" else "OPEN_BEFORE_CLOSE"

end OpenVPNService

/-! ## processNeedCommand -/

/-- What stands between the first two quotation marks. -/
def quoted (argument : Str) : Except Throwable Str :=
  match argument.dropWhile (· ≠ '\'') with
  | [] => throw .stringIndexOutOfBounds
  | _ :: rest => if '\'' ∈ rest then return rest.takeWhile (· ≠ '\'') else throw .stringIndexOutOfBounds

/-- The state after the answer of the service, and the status that is answered. -/
def handleNeed (android : Android π) (needed extra : Str) (s : OpenVPNService π) :
    Result (OpenVPNService π × Option Str) := do
  if needed = "PROTECTFD".toList then return (s, some "ok")
  else if needed = "DNSSERVER".toList ∨ needed = "DNS6SERVER".toList then return (s.addDNS extra, some "ok")
  else if needed = "DNSDOMAIN".toList then return (s.addSearchDomain extra, some "ok")
  else if needed = "ROUTE".toList then
    let routeparts := Str.split (· = ' ') extra
    if routeparts.length = 5 then
      let s ← s.addRoute (← get routeparts 0) (← get routeparts 1) (← get routeparts 2) (some (← get routeparts 4))
      return (s, some "ok")
    else if routeparts.length ≥ 3 then
      let s ← s.addRoute (← get routeparts 0) (← get routeparts 1) (← get routeparts 2) none
      return (s, some "ok")
    else return (s, some "ok")
  else if needed = "ROUTE6".toList then
    let routeparts := Str.split (· = ' ') extra
    return (← s.addRoutev6Device android (← get routeparts 0) (← get routeparts 1), some "ok")
  else if needed = "IFCONFIG".toList then
    let ifconfigparts := Str.split (· = ' ') extra
    let mtu ← parseInt (← get ifconfigparts 2)
    return (← s.setLocalIP (← get ifconfigparts 0) (← get ifconfigparts 1) mtu (← get ifconfigparts 3), some "ok")
  else if needed = "IFCONFIG6".toList then
    let ifconfig6parts := Str.split (· = ' ') extra
    let mtu ← parseInt (← get ifconfig6parts 1)
    return ((s.setMtu mtu).setLocalIPv6 (← get ifconfig6parts 0), some "ok")
  else if needed = "PERSIST_TUN_ACTION".toList then return (s, some (← s.getTunReopenStatus android))
  else if needed = "OPENTUN".toList then
    if extra = "tun".toList then
      return (← s.openTun android, some (if s.canOpen android && android.tunSent then "ok" else "cancel"))
    else return (s, some "cancel")
  else if needed = "HTTPPROXY".toList then
    let httpproxy := Str.split (· = ' ') extra
    if httpproxy.length = 2 then
      return (s.addHttpProxy android (← get httpproxy 0) (← parseInt (← get httpproxy 1)), some "ok")
    else return (s, some "ok")
  else return (s, none)

/-- The state after a message and the commands that are written to OpenVPN. -/
def processNeedCommand (android : Android π) (argument : Str) (s : OpenVPNService π) :
    Result (OpenVPNService π × List Str) := do
  let needed ← quoted argument
  let extra ← get (Proxy.splitLimit ':' 1 argument) 1
  let (s, status) ← handleNeed android needed extra s
  return (s, status.toList.map fun status => "needok '" ++ needed ++ "' " ++ status ++ "\n")

end AllInSafe.Tun
