import AllInSafe.Tun.Lemmas.ConfigTexts
import AllInSafe.Tun.Lemmas.Opened
import Mathlib

/-!
# What the string of a configuration tells apart
-/

namespace AllInSafe.Tun
open AllInSafe.Library AllInSafe.Config
open AllInSafe.Routes (IpAddress NetworkSpace)

variable {π : Type} {android : Android π} {s s' : OpenVPNService π} {tc tc' : TunConfig π}

/-! ## The characters of the parts -/

theorem notMem_of_addressChars {c : Char} {t : Str} (hc : c ∉ addressChars) (ht : ∀ d ∈ t, d ∈ addressChars) : c ∉ t :=
  fun h => hc (ht c h)

theorem notMem_decimal {c : Char} (hc : c ∉ addressChars) (n : Nat) : c ∉ decimal n :=
  notMem_of_addressChars hc fun _ hd => digit_mem_addressChars (mem_decimal hd)

theorem notMem_localText (h : tc.Pushable android) {c : Char} (hc : c ∉ addressChars) (hslash : c ≠ '/') :
    c ∉ localText tc := by
  have hdotted : ∀ d ∈ "0123456789.".toList, d ∈ addressChars := by decide
  have hv4 : c ∉ tc.mLocalIP.elim [] CIDRIP.toString := by
    cases hip : tc.mLocalIP with
    | none => simp
    | some ip =>
      obtain ⟨-, a, ha⟩ := h.mLocalIP ip hip
      have hprint : c ∉ ip.mIp := by
        rw [ha]
        exact notMem_of_addressChars hc fun d hd => hdotted d (mem_print_in_addr_t hd)
      have htext : ip.toString = ip.mIp ++ '/' :: decimal ip.len := rfl
      simp [htext, hprint, hslash, notMem_decimal hc]
  have hv6 : c ∉ tc.mLocalIPv6.getD [] := by
    cases hip6 : tc.mLocalIPv6 with
    | none => simp
    | some text =>
      obtain ⟨l, n, rfl⟩ := h.mLocalIPv6 text hip6
      have hliteral : c ∉ l.text := notMem_of_addressChars hc fun d hd => mem_literal hd
      simp [hliteral, hslash, notMem_decimal hc]
  rw [localText, List.mem_append, not_or]
  exact ⟨hv4, hv6⟩

theorem notMem_joined {c : Char} {texts : List Str} (hbar : c ≠ '|') (h : ∀ t ∈ texts, c ∉ t) : c ∉ joined texts := by
  intro hmem
  rcases mem_joined hmem with hc | ⟨t, ht, hct⟩
  · exact hbar hc
  · exact h t ht hct

theorem notMem_netText {c : Char} (hc : c ∉ addressChars) (hslash : c ≠ '/') (net : IpAddress) : c ∉ netText net := by
  have haddress : c ∉ addressText net := notMem_of_addressChars hc fun _ hd => mem_addressText hd
  simp [netText_eq, haddress, hslash, notMem_decimal hc]

theorem notMem_routesText {c : Char} (hc : c ∉ addressChars) (hslash : c ≠ '/') (hbar : c ≠ '|')
    (nets nets6 : List IpAddress) : c ∉ routesText nets nets6 := by
  have hnets : ∀ nets : List IpAddress, c ∉ joined (nets.map netText) := by
    refine fun nets => notMem_joined hbar fun t ht => ?_
    obtain ⟨net, -, rfl⟩ := List.mem_map.mp ht
    exact notMem_netText hc hslash net
  rw [routesText, List.mem_append, not_or]
  exact ⟨hnets nets, hnets nets6⟩

theorem notMem_dns (h : tc.Pushable android) {c : Char} (hc : c ∉ addressChars) (hbar : c ≠ '|') :
    c ∉ joined tc.mDnslist :=
  notMem_joined hbar fun _ hdns => notMem_of_addressChars hc (mem_dns h hdns).2

/-! ## One text -/

theorem areNets4_of_pushable (h : tc.Pushable android) (included : Bool) :
    AreNets4 included (getNetworks tc.mRoutes included) := by
  intro net hnet
  obtain ⟨hmem, hincluded⟩ := List.mem_filter.mp hnet
  exact ⟨h.mRoutes net hmem, of_decide_eq_true hincluded⟩

theorem areNets6_of_pushable (h : tc.Pushable android) (included : Bool) :
    AreNets6 (getNetworks tc.mRoutesv6 included) :=
  fun net hnet => h.mRoutesv6 net (List.mem_filter.mp hnet).1

theorem routes_eq_iff (h : tc.Pushable android) (h' : tc'.Pushable android) (included : Bool) :
    spaceText tc.mRoutes included ++ spaceText tc.mRoutesv6 included =
        spaceText tc'.mRoutes included ++ spaceText tc'.mRoutesv6 included ↔
      RoutesAlike (getNetworks tc.mRoutes included) (getNetworks tc.mRoutesv6 included)
        (getNetworks tc'.mRoutes included) (getNetworks tc'.mRoutesv6 included) :=
  routesText_eq_iff (areNets4_of_pushable h included) (areNets6_of_pushable h included)
    (areNets4_of_pushable h' included) (areNets6_of_pushable h' included)

theorem dns_eq_iff (h : tc.Pushable android) (h' : tc'.Pushable android) :
    joined tc.mDnslist = joined tc'.mDnslist ↔ tc.mDnslist = tc'.mDnslist := by
  have hbar : '|' ∉ addressChars := by decide
  constructor
  · exact joined_inj (fun dns hdns => ⟨(mem_dns h hdns).1, notMem_of_addressChars hbar (mem_dns h hdns).2⟩)
      fun dns hdns => ⟨(mem_dns h' hdns).1, notMem_of_addressChars hbar (mem_dns h' hdns).2⟩
  · intro heq
    rw [heq]

theorem decimalInt_natCast (n : Nat) : decimalInt n = decimal n := rfl

/-- Two configurations have one text exactly when they are alike. -/
theorem configText_eq_iff (hproxy : DirectProxyText android) (h : tc.Pushable android) (h' : tc'.Pushable android) :
    configText android tc = configText android tc' ↔ tc.Alike tc' := by
  obtain ⟨mtu, hmtu⟩ := h.mMtu
  obtain ⟨mtu', hmtu'⟩ := h'.mMtu
  constructor
  · intro heq
    rw [configText, configText, layout_eq, layout_eq] at heq
    obtain ⟨hips, hroutes, hexcluded, hdns, hrest⟩ := parts_inj
      (notMem_localText h (by decide) (by decide)) (notMem_routesText (by decide) (by decide) (by decide) _ _)
      (notMem_routesText (by decide) (by decide) (by decide) _ _) (notMem_dns h (by decide) (by decide))
      (notMem_localText h' (by decide) (by decide)) (notMem_routesText (by decide) (by decide) (by decide) _ _)
      (notMem_routesText (by decide) (by decide) (by decide) _ _) (notMem_dns h' (by decide) (by decide)) heq
    obtain ⟨hbefore, hinfo⟩ := proxyInfo_inj hproxy h h' hrest
    have hlabel : ' ' ∉ "proxyInfo:".toList := by decide
    have hblank : ∀ n : Nat, ' ' ∉ decimalInt n ++ "proxyInfo:".toList := by
      intro n
      rw [decimalInt_natCast, List.mem_append, not_or]
      exact ⟨blank_notMem_decimal n, hlabel⟩
    rw [hmtu, hmtu'] at hbefore
    obtain ⟨hdomains, hnumber⟩ := Str.append_cons_inj_last (hblank mtu) (hblank mtu') hbefore
    refine ⟨(localText_eq_iff h h').mp hips, fun included => (routes_eq_iff h h' included).mp ?_,
      (dns_eq_iff h h').mp hdns, joined_domains_iff.mp (List.append_cancel_right hdomains), ?_, hinfo⟩
    · cases included with
      | false => exact hexcluded
      | true => exact hroutes
    · rw [hmtu, hmtu', decimal_inj (List.append_cancel_right hnumber)]
  · intro halike
    have hips := (localText_eq_iff h h').mpr halike.addresses
    have hroutes := (routes_eq_iff h h' true).mpr (halike.routes true)
    have hexcluded := (routes_eq_iff h h' false).mpr (halike.routes false)
    rw [localText, localText] at hips
    rw [configText, configText, layout_eq, layout_eq, hips, hroutes, hexcluded, halike.mDnslist,
      joined_domains_iff.mpr halike.mSearchDomainList, halike.mMtu, halike.mProxyInfo]

/-! ## What pushes build -/

theorem TunConfig.pushable_empty : ({} : TunConfig π).Pushable android :=
  ⟨TunConfig.sound_empty, (fun _ h => by cases h), (fun _ h => by cases h), ⟨0, rfl⟩, fun _ h => by cases h⟩

theorem TunConfig.Pushable.addNets (h : s.tunConfig.Pushable android) {nets : List IpAddress}
    (hnets : ∀ net ∈ nets, IsNet4 net) : (s.addNets nets).tunConfig.Pushable android := by
  induction nets generalizing s with
  | nil => exact h
  | cons net nets ih =>
    rw [List.forall_mem_cons] at hnets
    refine @ih (s.addNet net) ⟨⟨h.mLocalIP, fun n hn => ?_, h.mRoutesv6⟩, h.mLocalIPv6, h.mDnslist, h.mMtu, h.mProxyInfo⟩
      hnets.2
    rcases Routes.mem_treeSetAdd hn with rfl | hn
    · exact hnets.1
    · exact h.mRoutes n hn

theorem TunConfig.Pushable.addDNS (h : s.tunConfig.Pushable android) {dns : Str}
    (hdns : (∃ ip : InAddr, dns = ip.print_in_addr_t) ∨ ∃ l : Literal, dns = l.text) :
    (s.addDNS dns).tunConfig.Pushable android := by
  refine ⟨⟨h.mLocalIP, h.mRoutes, h.mRoutesv6⟩, h.mLocalIPv6, fun text htext => ?_, h.mMtu, h.mProxyInfo⟩
  rcases List.mem_append.mp htext with htext | htext
  · exact h.mDnslist text htext
  · exact List.mem_singleton.mp htext ▸ hdns

theorem TunConfig.Pushable.addNet6 (h : s.tunConfig.Pushable android) {net : IpAddress} (hnet : net.isV4 = false) :
    (s.addNet6 net).tunConfig.Pushable android := by
  refine ⟨⟨h.mLocalIP, h.mRoutes, fun n hn => ?_⟩, h.mLocalIPv6, h.mDnslist, h.mMtu, h.mProxyInfo⟩
  rcases Routes.mem_treeSetAdd hn with rfl | hn
  · exact hnet
  · exact h.mRoutesv6 n hn

/-- Whatever is pushed next. -/
theorem TunConfig.Pushable.perform {m : Message} {status : Str} (h : s.tunConfig.Pushable android)
    (hperform : m.perform android s = .ok (s', status)) : s'.tunConfig.Pushable android := by
  cases m with
  | dns6server address =>
    cases hperform
    exact h.addDNS (.inr ⟨address, rfl⟩)
  | dnsserver address =>
    cases hperform
    exact h.addDNS (.inl ⟨address, rfl⟩)
  | dnsdomain domain =>
    cases hperform
    exact ⟨⟨h.mLocalIP, h.mRoutes, h.mRoutesv6⟩, h.mLocalIPv6, h.mDnslist, h.mMtu, h.mProxyInfo⟩
  | route network netmask gateway iface =>
    cases hlocal : s.tunConfig.mLocalIP with
    | none =>
      rw [Message.perform, addRoute_none hlocal] at hperform
      cases hperform
      exact h
    | some mLocalIP =>
      obtain ⟨-, ip, hip⟩ := h.mLocalIP mLocalIP hlocal
      obtain ⟨net, hnet, hroute⟩ :=
        routeNet_print network netmask gateway ip (iface.map Token.text) s.mRemoteGW mLocalIP.len
      rw [← hip] at hroute
      rw [Message.perform, addRoute_some hlocal hroute] at hperform
      cases hperform
      have hadded : (s.addNets [net]).tunConfig.Pushable android := h.addNets (List.forall_mem_singleton.mpr hnet)
      exact hadded
  | route6 network netbits device =>
    rw [Message.perform, OpenVPNService.addRoutev6Device, addRoutev6_print] at hperform
    cases hname : android.getAllByName network.text with
    | none =>
      rw [hname] at hperform
      cases hperform
      exact h
    | some address =>
      rw [hname] at hperform
      cases address with
      | inet4 bytes => cases hperform
      | inet6 ip =>
        cases hperform
        exact h.addNet6 rfl
  | ifconfig ip netmask mtu topology =>
    obtain ⟨len, hlen, nets, hnets, hset⟩ := @setLocalIP_print π ip netmask topology.text
    rw [Message.perform, hset] at hperform
    cases hperform
    have hlocal : ({ s with tunConfig := { s.tunConfig with mLocalIP := some ⟨ip.print_in_addr_t, len⟩, mMtu := (mtu : Nat) } } :
        OpenVPNService π).tunConfig.Pushable android := by
      refine ⟨⟨fun a ha => ?_, h.mRoutes, h.mRoutesv6⟩, h.mLocalIPv6, h.mDnslist, ⟨mtu, rfl⟩, h.mProxyInfo⟩
      obtain rfl := Option.some.inj ha
      exact ⟨hlen, ip, rfl⟩
    exact hlocal.addNets hnets
  | ifconfig6 ip netbits mtu =>
    cases hperform
    refine ⟨⟨h.mLocalIP, h.mRoutes, h.mRoutesv6⟩, fun text htext => ?_, h.mDnslist, ⟨mtu, rfl⟩, h.mProxyInfo⟩
    cases htext
    exact ⟨ip, netbits, rfl⟩
  | httpproxy host port =>
    by_cases hhost : ∀ c ∈ host, c ≠ ' '
    · rw [Message.perform, if_pos hhost, OpenVPNService.addHttpProxy] at hperform
      cases hbuild : android.buildDirectProxy host (port : Nat) with
      | none =>
        rw [hbuild] at hperform
        cases hperform
        exact h
      | some proxyInfo =>
        rw [hbuild] at hperform
        cases hperform
        refine ⟨⟨h.mLocalIP, h.mRoutes, h.mRoutesv6⟩, h.mLocalIPv6, h.mDnslist, h.mMtu, fun info hinfo => ?_⟩
        cases hinfo
        exact ⟨host, port, hhost, hbuild⟩
    · rw [Message.perform, if_neg hhost] at hperform
      cases hperform
      exact h
  | persistTunAction =>
    obtain ⟨status, -, hperform⟩ := bind_eq_ok.mp hperform
    cases hperform
    exact h

/-- Every run of messages builds a configuration that the theorem below is about. -/
theorem pushable_of_messages {ms : List Message} {written : List (List Str)} (h : s.tunConfig.Pushable android)
    (hrun : processNeedCommands android ms s = .ok (s', written)) : s'.tunConfig.Pushable android := by
  induction ms generalizing s written with
  | nil => cases hrun; exact h
  | cons m ms ih =>
    have hrun : processNeedCommands android ([m] ++ ms) s = .ok (s', written) := hrun
    obtain ⟨s₁, written₁, written₂, hfirst, hrest⟩ := processNeedCommands_append_ok hrun
    obtain ⟨status, hperform⟩ := processNeedCommands_singleton hfirst
    exact ih (h.perform hperform) hrest

/-! ## The answer -/

theorem configText_ne_null (tc : TunConfig π) : configText android tc ≠ "NULL".toList := by
  rw [configText, layout_eq]
  intro h
  have hhead := congrArg List.head? h
  have hlabel : "TUNCFG UNQIUE STRING ips:".toList.head? = some 'T' := by decide
  rw [List.head?_append, hlabel, Option.some_or] at hhead
  exact absurd hhead (by decide)

/-- The string tells two configurations apart, and the tunnel is kept for the same configuration only, exactly when the two
are not confused. -/
theorem tunConfigString_tells_apart_iff (hproxy : DirectProxyText android) (h : tc.Pushable android)
    (h' : tc'.Pushable android) :
    ((getTunConfigString android (some tc) = getTunConfigString android (some tc') → tc.Same tc') ∧
      ∀ s : OpenVPNService π, s.tunConfig = tc → (s.mLastTunCfg = none ∨ s.mLastTunCfg = some tc') →
        s.getTunReopenStatus android = .ok "NOACTION".toList → s.mLastTunCfg = some tc' ∧ tc.Same tc') ↔
      ¬ tc.Confused tc' := by
  have htext : getTunConfigString android (some tc) = .ok (configText android tc) := getTunConfigString_sound h.toSound
  have htext' : getTunConfigString android (some tc') = .ok (configText android tc') :=
    getTunConfigString_sound h'.toSound
  constructor
  · rintro ⟨hsame, -⟩ hconfused
    refine (TunConfig.confused_iff hconfused.1).mp hconfused (hsame ?_)
    rw [htext, htext', (configText_eq_iff hproxy h h').mpr hconfused.1]
  · intro hconfused
    have hsame : configText android tc = configText android tc' → tc.Same tc' := by
      intro heq
      have halike := (configText_eq_iff hproxy h h').mp heq
      exact not_not.mp fun hne => hconfused ((TunConfig.confused_iff halike).mpr hne)
    refine ⟨fun heq => hsame ?_, fun s htc hlast hstatus => ?_⟩
    · rw [htext, htext'] at heq
      exact Except.ok.inj heq
    · have hnoaction : "OPEN_BEFORE_CLOSE".toList ≠ "NOACTION".toList := by decide
      obtain ⟨text, htc', hstatus⟩ := bind_eq_ok.mp hstatus
      obtain ⟨last, hlast', hstatus⟩ := bind_eq_ok.mp hstatus
      rw [htc, htext] at htc'
      obtain rfl := Except.ok.inj htc'
      have heq : configText android tc = last := by
        by_contra hne
        have hstatus := Except.ok.inj hstatus
        rw [if_neg hne] at hstatus
        exact hnoaction hstatus
      rcases hlast with hlast | hlast
      · rw [hlast] at hlast'
        obtain rfl := Except.ok.inj hlast'
        exact absurd heq (configText_ne_null tc)
      · rw [hlast, htext'] at hlast'
        obtain rfl := Except.ok.inj hlast'
        exact ⟨hlast, hsame heq⟩

/-! ## Concrete configurations -/

/-- Two routes that differ in where their zeros are: `2001:db8::/48` and `0:2001:db8::/48`. -/
def firstNetwork : Literal := plainNetwork

def laterNetwork : Literal := ⟨[0, 0x2001, 0xdb8], some [], none, by decide⟩

def proxyAndroid : Android (Str × Int) where
  debug := true
  getAllByName text :=
    if text = firstNetwork.text then some (.inet6 firstNetwork.address)
    else if text = laterNetwork.text then some (.inet6 laterNetwork.address)
    else none
  buildDirectProxy host port := some (host, port)
  proxyText proxyInfo := "[" ++ proxyInfo.1 ++ "] " ++ decimalInt proxyInfo.2
  getLocalNetworks _ := []
  doUseOpenVPN3 := false
  mAllowLocalLAN := some false
  tunSent := true

theorem directProxyText_proxyAndroid : DirectProxyText proxyAndroid := by
  rintro host port proxyInfo ⟨⟩
  rfl

/-- A push with one route. -/
def routeMessages (tun_mtu : Fin (2 ^ 31)) (network : Literal) : List Message :=
  [.ifconfig6 ⟨[0xfd00], some [2], none, by decide⟩ 64 tun_mtu, .route6 network 48 ⟨"tun0", by decide, by decide⟩]

def routeConfig (tun_mtu : Fin (2 ^ 31)) (network : Literal) : TunConfig (Str × Int) where
  mLocalIPv6 := some "fd00::2/64"
  mMtu := (tun_mtu : Nat)
  mRoutesv6 := ⟨[.ofInet6Address network.address 48 true]⟩

theorem run_routeMessages (tun_mtu : Fin (2 ^ 31)) {network : Literal}
    (h : proxyAndroid.getAllByName network.text = some (.inet6 network.address)) :
    ∃ written, processNeedCommands proxyAndroid (routeMessages tun_mtu network) {} =
      .ok ({ tunConfig := routeConfig tun_mtu network }, written) := by
  simp only [routeMessages, processNeedCommands, Message.processNeedCommand_argument, Message.perform, pure_bind,
    OpenVPNService.addRoutev6Device, addRoutev6_print, h, bind_ok]
  exact ⟨_, rfl⟩

theorem pushable_routeConfig (tun_mtu : Fin (2 ^ 31)) {network : Literal}
    (h : proxyAndroid.getAllByName network.text = some (.inet6 network.address)) :
    (routeConfig tun_mtu network).Pushable proxyAndroid := by
  obtain ⟨written, hrun⟩ := run_routeMessages tun_mtu h
  exact pushable_of_messages TunConfig.pushable_empty hrun

theorem getAllByName_first : proxyAndroid.getAllByName firstNetwork.text = some (.inet6 firstNetwork.address) := by
  simp [proxyAndroid]

theorem getAllByName_later : proxyAndroid.getAllByName laterNetwork.text = some (.inet6 laterNetwork.address) := by
  have hne : laterNetwork.text ≠ firstNetwork.text := by decide
  simp [proxyAndroid, hne]

theorem tunConfigString_tells_apart_iff_mtu :
    getTunConfigString proxyAndroid (some (routeConfig 1500 firstNetwork)) ≠
      getTunConfigString proxyAndroid (some (routeConfig 1400 laterNetwork)) := by
  intro heq
  have hmtu : (routeConfig 1500 firstNetwork).mMtu ≠ (routeConfig 1400 laterNetwork).mMtu := by decide
  have hsame := ((tunConfigString_tells_apart_iff directProxyText_proxyAndroid (pushable_routeConfig 1500 getAllByName_first)
    (pushable_routeConfig 1400 getAllByName_later)).mpr fun hconfused => hmtu hconfused.1.mMtu).1 heq
  exact hmtu hsame.mMtu

/-- The texts of both routes are `2001:db8::/48`. -/
theorem routes_confused :
    (∃ written, processNeedCommands proxyAndroid (routeMessages 1500 firstNetwork) {} =
        .ok ({ tunConfig := routeConfig 1500 firstNetwork }, written)) ∧
      (∃ written, processNeedCommands proxyAndroid (routeMessages 1500 laterNetwork) {} =
        .ok ({ tunConfig := routeConfig 1500 laterNetwork }, written)) ∧
        getTunConfigString proxyAndroid (some (routeConfig 1500 firstNetwork)) =
          getTunConfigString proxyAndroid (some (routeConfig 1500 laterNetwork)) ∧
          ¬ (routeConfig 1500 firstNetwork).Same (routeConfig 1500 laterNetwork) := by
  have hfirst := pushable_routeConfig 1500 getAllByName_first
  have hlater := pushable_routeConfig 1500 getAllByName_later
  have hzeros : ZerosMoved (IpAddress.ofInet6Address firstNetwork.address 48 true).netAddress
      (IpAddress.ofInet6Address laterNetwork.address 48 true).netAddress := ⟨0x20010db8, 6, 5, by decide⟩
  refine ⟨run_routeMessages 1500 getAllByName_first, run_routeMessages 1500 getAllByName_later, ?_, fun hsame => ?_⟩
  · rw [getTunConfigString_sound hfirst.toSound, getTunConfigString_sound hlater.toSound]
    refine congrArg Except.ok ((configText_eq_iff directProxyText_proxyAndroid hfirst hlater).mpr
      ⟨.inl ⟨rfl, rfl⟩, fun included => .inl ⟨rfl, ?_⟩, rfl, rfl, rfl, rfl⟩)
    cases included with
    | false => exact .nil
    | true => exact .cons ⟨rfl, .inr hzeros⟩ .nil
  · have hnets := hsame.mRoutesv6 true
    revert hnets
    decide

end AllInSafe.Tun
