import AllInSafe.Routes.Lemmas.Sets
import AllInSafe.Tun.Lemmas.Commands

/-!
# What each message does to the service
-/

namespace AllInSafe.Tun
open AllInSafe.Library AllInSafe.Config
open AllInSafe.Routes (IpAddress Inet6Address Contains treeSetAdd)

variable {π : Type} {android : Android π} {s s' : OpenVPNService π} {tc : TunConfig π} {mLocalIP : CIDRIP}

/-! ## Sound configurations -/

/-- A net as an IPv4 route that OpenVPN may push. -/
def IsNet4 (net : IpAddress) : Prop := net.isV4 = true ∧ net.netAddress < 2 ^ 32 ∧ net.networkMask ≤ 32

/-- The addresses of the configuration were written by OpenVPN. -/
structure TunConfig.Sound (tc : TunConfig π) : Prop where
  mLocalIP : ∀ ip, tc.mLocalIP = some ip → ip.len ≤ 32 ∧ ∃ a : InAddr, ip.mIp = a.print_in_addr_t
  mRoutes : ∀ net ∈ tc.mRoutes.mIpAddresses, IsNet4 net
  mRoutesv6 : ∀ net ∈ tc.mRoutesv6.mIpAddresses, net.isV4 = false

structure OpenVPNService.Sound (s : OpenVPNService π) : Prop where
  tunConfig : s.tunConfig.Sound
  mLastTunCfg : ∀ tc, s.mLastTunCfg = some tc → tc.Sound

theorem TunConfig.sound_empty : ({} : TunConfig π).Sound :=
  ⟨(fun _ h => by cases h), (fun _ h => by cases h), fun _ h => by cases h⟩

/-! ## The text of a configuration -/

/-- The texts of a set, where no assertion fails. -/
def spaceText (space : Routes.NetworkSpace) (included : Bool) : Str := joined ((getNetworks space included).map netText)

/-- What `getTunConfigString` puts around the texts of the fields. -/
def layout (ips ips6 routes routes6 excluded excluded6 dns domains mtu proxy : Str) : Str :=
  "TUNCFG UNQIUE STRING ips:" ++ ips ++ ips6 ++ "routes: " ++ routes ++ routes6 ++ "excl. routes:" ++ excluded ++
    excluded6 ++ "dns: " ++ dns ++ "domain: " ++ domains ++ "mtu: " ++ mtu ++ "proxyInfo: " ++ proxy

def configText (android : Android π) (tc : TunConfig π) : Str :=
  layout (tc.mLocalIP.elim [] CIDRIP.toString) (tc.mLocalIPv6.getD []) (spaceText tc.mRoutes true)
    (spaceText tc.mRoutesv6 true) (spaceText tc.mRoutes false) (spaceText tc.mRoutesv6 false) (joined tc.mDnslist)
    (joined tc.mSearchDomainList) (decimalInt tc.mMtu) (tc.mProxyInfo.elim "null".toList android.proxyText)

theorem mapM_ok {α β : Type} {f : α → Result β} {g : α → β} {l : List α} (h : ∀ a ∈ l, f a = .ok (g a)) :
    l.mapM f = .ok (l.map g) := by
  induction l with
  | nil => rfl
  | cons a l ih =>
      rw [List.forall_mem_cons] at h
      rw [List.mapM_cons, h.1, ih h.2]
      rfl

theorem networksText_ok {space : Routes.NetworkSpace} {included : Bool}
    (h : ∀ net ∈ space.mIpAddresses, net.isV4 = true → net.netAddress < 2 ^ 32) :
    networksText android.debug space included = .ok (spaceText space included) := by
  have hmap := @mapM_ok _ _ (netTextChecked android.debug) netText (getNetworks space included) fun net hnet => by
    have hmem : net ∈ space.mIpAddresses := (List.mem_filter.mp hnet).1
    have hrange : ¬ (android.debug && net.isV4 && decide (0xffffffff < net.netAddress)) = true := by
      simp only [Bool.and_eq_true, decide_eq_true_eq]
      rintro ⟨⟨-, hv4⟩, hlt⟩
      have := h net hmem hv4
      omega
    rw [netTextChecked, if_neg hrange]
    rfl
  rw [networksText, hmap]
  rfl

theorem getTunConfigString_sound (h : tc.Sound) : getTunConfigString android (some tc) = .ok (configText android tc) := by
  have hv4 : ∀ net ∈ tc.mRoutes.mIpAddresses, net.isV4 = true → net.netAddress < 2 ^ 32 :=
    fun net hnet _ => (h.mRoutes net hnet).2.1
  have hv6 : ∀ net ∈ tc.mRoutesv6.mIpAddresses, net.isV4 = true → net.netAddress < 2 ^ 32 :=
    fun net hnet hv4 => absurd hv4 (by simp [h.mRoutesv6 net hnet])
  simp only [getTunConfigString, networksText_ok hv4, networksText_ok hv6, bind_ok]
  rfl

theorem getTunReopenStatus_sound (h : s.Sound) : ∃ status, s.getTunReopenStatus android = .ok status := by
  have hcurrent := @getTunConfigString_sound π android s.tunConfig h.tunConfig
  have hlast : ∃ last, getTunConfigString android s.mLastTunCfg = .ok last := by
    cases hl : s.mLastTunCfg with
    | none => exact ⟨_, rfl⟩
    | some tc => exact ⟨_, getTunConfigString_sound (h.mLastTunCfg tc hl)⟩
  obtain ⟨last, hlast⟩ := hlast
  rw [OpenVPNService.getTunReopenStatus, hcurrent, bind_ok, hlast, bind_ok]
  exact ⟨_, rfl⟩

/-! ## Routes -/

/-- The net that `addRoute` adds, when there is a local address. -/
def routeNet (dest mask gateway : Str) (device mRemoteGW : Option Str) (mLocalIP : CIDRIP) : Except Throwable IpAddress := do
  let route ← CIDRIP.ofNetmask dest mask
  let gatewayIP ← netOf ⟨gateway, 32⟩ false
  let localNet ← netOf mLocalIP true
  let included := OpenVPNService.isAndroidTunDevice device || containsNet localNet gatewayIP ||
    gateway = "255.255.255.255".toList || some gateway = mRemoteGW
  let (_, route) ← normalise route
  netOf route included

theorem isNet4_print (ip : InAddr) {len : Nat} (hlen : len ≤ 32) (included : Bool) :
    IsNet4 ⟨ip.value, len, included, true⟩ := ⟨rfl, ip.value_lt, hlen⟩

theorem routeNet_print (network netmask gateway ip : InAddr) (device mRemoteGW : Option Str) (len : Nat) :
    ∃ net, IsNet4 net ∧ routeNet network.print_in_addr_t netmask.print_in_addr_t gateway.print_in_addr_t device mRemoteGW
      ⟨ip.print_in_addr_t, len⟩ = .ok net := by
  obtain ⟨routeLen, hle, hroute⟩ := ofNetmask_print network netmask
  obtain ⟨changed, network', hnormal⟩ := normalise_print network routeLen
  have hnet : ∃ included, routeNet network.print_in_addr_t netmask.print_in_addr_t gateway.print_in_addr_t device mRemoteGW
      ⟨ip.print_in_addr_t, len⟩ = .ok ⟨network'.value, routeLen, included, true⟩ := by
    simp only [routeNet, hroute, netOf_print, hnormal, bind, Except.bind]
    exact ⟨_, rfl⟩
  obtain ⟨included, hnet⟩ := hnet
  exact ⟨_, isNet4_print network' hle included, hnet⟩

theorem addRoute_none {dest mask gateway : InAddr} {device : Option Str} (h : s.tunConfig.mLocalIP = none) :
    s.addRoute dest.print_in_addr_t mask.print_in_addr_t gateway.print_in_addr_t device = .ok s := by
  obtain ⟨len, -, hroute⟩ := ofNetmask_print dest mask
  simp only [OpenVPNService.addRoute, hroute, netOf_print, h, bind, Except.bind]
  rfl

theorem addRoute_local {dest mask gateway : Str} {device : Option Str} (h : s.tunConfig.mLocalIP = some mLocalIP) :
    s.addRoute dest mask gateway device =
      (do return s.addNet (← routeNet dest mask gateway device s.mRemoteGW mLocalIP)) := by
  simp only [OpenVPNService.addRoute, h, routeNet, OpenVPNService.addRouteNet, bind_assoc]

theorem addRoute_some {dest mask gateway : Str} {device : Option Str} {net : IpAddress}
    (h : s.tunConfig.mLocalIP = some mLocalIP)
    (hnet : routeNet dest mask gateway device s.mRemoteGW mLocalIP = .ok net) :
    s.addRoute dest mask gateway device = .ok (s.addNet net) := by
  rw [addRoute_local h, hnet]
  rfl

theorem split_net6 (l : Literal) (n : Nat) : Str.split (· = '/') (l.text ++ "/" ++ decimal n) = [l.text, decimal n] := by
  have htext : ∀ c ∈ l.text, decide (c = '/') = false :=
    fun c hc => decide_eq_false (ne_of_mem_addressChars (mem_literal hc)).2
  have hdecimal : ∀ c ∈ decimal n, decide (c = '/') = false := fun c hc => decide_eq_false (decimal_ne c hc).2.1
  have hslash : l.text ++ "/" ++ decimal n = l.text ++ '/' :: decimal n := by simp
  rw [hslash, Str.split_append_sep (by decide) (decimal_ne_nil n) hdecimal, Str.parts_of_forall htext]
  rfl

/-- What a pushed IPv6 route does depends on the object that the system makes of its address. -/
theorem addRoutev6_print (l : Literal) (n : Fin 129) (included : Bool) :
    s.addRoutev6 android (l.text ++ "/" ++ decimal n) included =
      match android.getAllByName l.text with
      | none => .ok s
      | some (.inet4 _) => .error .classCast
      | some (.inet6 ip) => .ok (s.addNet6 (.ofInet6Address ip n included)) := by
  have hparse : parseInt (decimal n) = .ok ((n : Nat) : Int) := parseInteger_decimal (n.isLt.trans (by decide))
  simp only [OpenVPNService.addRoutev6, OpenVPNService.net6Of, split_net6, get_zero, get_succ, lift_ok, bind_ok]
  cases hname : android.getAllByName l.text with
  | none => rfl
  | some address =>
    cases address with
    | inet4 bytes => rfl
    | inet6 ip =>
      simp only [hparse, lift_ok, bind_ok]
      rfl

/-! ## The local address -/

/-- The nets are put into `mRoutes`, one after the other. -/
def OpenVPNService.addNets (nets : List IpAddress) (s : OpenVPNService π) : OpenVPNService π :=
  nets.foldl (fun s net => s.addNet net) s

theorem setLocalIP_print (ip netmask : InAddr) (mode : Str) :
    ∃ len ≤ 32, ∃ nets : List IpAddress, (∀ net ∈ nets, IsNet4 net) ∧ ∀ (s : OpenVPNService π) (mtu : Int),
      s.setLocalIP ip.print_in_addr_t netmask.print_in_addr_t mtu mode = .ok
        { ({ s with tunConfig := { s.tunConfig with mLocalIP := some ⟨ip.print_in_addr_t, len⟩, mMtu := mtu } } :
            OpenVPNService π).addNets nets with mRemoteGW := some netmask.print_in_addr_t } := by
  obtain ⟨maskLen, hle, hmask⟩ := ofNetmask_print ip netmask
  obtain ⟨len, hlen, hlocal⟩ := localLen_print ip netmask mode hle
  obtain ⟨changed, ip', hnormal⟩ := normalise_print ip len
  refine ⟨len, hlen, if len ≤ 31 then [⟨ip'.value, len, true, true⟩] else [], ?_, fun s mtu => ?_⟩
  · intro net hnet
    split at hnet
    · obtain rfl := List.mem_singleton.mp hnet
      exact isNet4_print ip' hlen true
    · cases hnet
  · by_cases h : len ≤ 31
    · simp only [OpenVPNService.setLocalIP, hmask, hlocal, hnormal, OpenVPNService.addRouteNet, netOf_print, h, if_true,
        bind, Except.bind, pure, Except.pure]
      rfl
    · simp only [OpenVPNService.setLocalIP, hmask, hlocal, h, if_false, bind, Except.bind, pure, Except.pure]
      rfl

end AllInSafe.Tun
