import AllInSafe.Library.Outcome
import AllInSafe.Tun.Lemmas.Service
import AllInSafe.Tun.Reconnect

/-!
# What a push adds to a configuration

The same push has the same effect on every configuration.
-/

namespace AllInSafe.Tun
open AllInSafe.Library AllInSafe.Config
open AllInSafe.Routes (IpAddress Ascending Contains addAll addAll_append addAll_addAll)

variable {π : Type} {android : Android π} {s s' : OpenVPNService π} {tc : TunConfig π} {ms : List Message} {m : Message}

/-! ## Effects -/

/-- What the settings of a list add to a configuration or put into it. -/
structure Effect (π : Type) where
  mDnslist : List Str := []
  nets : List IpAddress := []
  nets6 : List IpAddress := []
  mSearchDomainList : List Str := []
  mMtu : Option Int := none
  mLocalIPv6 : Option Str := none
  mProxyInfo : Option π := none

namespace Effect

def apply (e : Effect π) (tc : TunConfig π) : TunConfig π :=
  { tc with
    mDnslist := tc.mDnslist ++ e.mDnslist
    mRoutes := ⟨addAll e.nets tc.mRoutes.mIpAddresses⟩
    mRoutesv6 := ⟨addAll e.nets6 tc.mRoutesv6.mIpAddresses⟩
    mSearchDomainList := tc.mSearchDomainList ++ e.mSearchDomainList
    mMtu := e.mMtu.getD tc.mMtu
    mLocalIPv6 := e.mLocalIPv6.or tc.mLocalIPv6
    mProxyInfo := e.mProxyInfo.or tc.mProxyInfo }

/-- The one effect and then the other. -/
def andThen (e e' : Effect π) : Effect π where
  mDnslist := e.mDnslist ++ e'.mDnslist
  nets := e.nets ++ e'.nets
  nets6 := e.nets6 ++ e'.nets6
  mSearchDomainList := e.mSearchDomainList ++ e'.mSearchDomainList
  mMtu := e'.mMtu.or e.mMtu
  mLocalIPv6 := e'.mLocalIPv6.or e.mLocalIPv6
  mProxyInfo := e'.mProxyInfo.or e.mProxyInfo

theorem apply_andThen (e e' : Effect π) (tc : TunConfig π) : (e.andThen e').apply tc = e'.apply (e.apply tc) := by
  simp only [apply, andThen, addAll_append, List.append_assoc, Option.or_assoc, TunConfig.mk.injEq, true_and, and_true]
  cases e'.mMtu <;> rfl

theorem apply_empty (tc : TunConfig π) : ({} : Effect π).apply tc = tc := by
  simp [apply, addAll]

/-- The second time only the lists grow. -/
theorem apply_apply (e : Effect π) (tc : TunConfig π) (h : Ascending tc.mRoutes.mIpAddresses)
    (h6 : Ascending tc.mRoutesv6.mIpAddresses) (dns domains : List Str) :
    e.apply { e.apply tc with mDnslist := dns, mSearchDomainList := domains } =
      { e.apply tc with mDnslist := dns ++ e.mDnslist, mSearchDomainList := domains ++ e.mSearchDomainList } := by
  simp only [apply, addAll_addAll h, addAll_addAll h6, TunConfig.mk.injEq, true_and]
  refine ⟨?_, ?_, ?_⟩
  · cases e.mMtu <;> rfl
  · cases e.mLocalIPv6 <;> rfl
  · cases e.mProxyInfo <;> rfl

end Effect

/-! ## The effect of the settings -/

/-- What a route is computed from. -/
def LocalIs (mLocalIP : Option CIDRIP) (mRemoteGW : Option Str) (s : OpenVPNService π) : Prop :=
  s.tunConfig.mLocalIP = mLocalIP ∧ (mLocalIP ≠ none → s.mRemoteGW = mRemoteGW)

/-- The messages have this effect wherever the local address is the given one. -/
def HasEffect (android : Android π) (mLocalIP : Option CIDRIP) (mRemoteGW : Option Str) (ms : List Message)
    (e : Effect π) : Prop :=
  ∀ s s' written, LocalIs mLocalIP mRemoteGW s → processNeedCommands android ms s = .ok (s', written) →
    s' = { s with tunConfig := e.apply s.tunConfig }

theorem processNeedCommands_append (ms ms' : List Message) :
    processNeedCommands android (ms ++ ms') s = (do
      let r ← processNeedCommands android ms s
      let r' ← processNeedCommands android ms' r.1
      return (r'.1, r.2 ++ r'.2)) := by
  induction ms generalizing s with
  | nil => simp [processNeedCommands]
  | cons m ms ih => simp [processNeedCommands, ih]

theorem processNeedCommands_singleton {written : List (List Str)}
    (h : processNeedCommands android [m] s = .ok (s', written)) : ∃ status, m.perform android s = .ok (s', status) := by
  obtain ⟨r, hcommand, h⟩ := bind_eq_ok.mp h
  rw [Message.processNeedCommand_argument] at hcommand
  obtain ⟨r', hperform, hr⟩ := bind_eq_ok.mp hcommand
  cases hr
  cases h
  exact ⟨r'.2, hperform⟩

/-- A run of two lists is a run of the first and then one of the second. -/
theorem processNeedCommands_append_ok {written : List (List Str)} {ms' : List Message}
    (h : processNeedCommands android (ms ++ ms') s = .ok (s', written)) :
    ∃ s₁ written₁ written₂, processNeedCommands android ms s = .ok (s₁, written₁) ∧
      processNeedCommands android ms' s₁ = .ok (s', written₂) := by
  rw [processNeedCommands_append] at h
  obtain ⟨r, hfirst, h⟩ := bind_eq_ok.mp h
  obtain ⟨r', hsecond, h⟩ := bind_eq_ok.mp h
  cases h
  exact ⟨r.1, r.2, r'.2, hfirst, hsecond⟩

theorem HasEffect.append {mLocalIP : Option CIDRIP} {mRemoteGW : Option Str} {e e' : Effect π} {ms' : List Message}
    (h : HasEffect android mLocalIP mRemoteGW ms e) (h' : HasEffect android mLocalIP mRemoteGW ms' e') :
    HasEffect android mLocalIP mRemoteGW (ms ++ ms') (e.andThen e') := by
  intro s s' written hs hrun
  obtain ⟨s₁, written₁, written₂, hfirst, hsecond⟩ := processNeedCommands_append_ok hrun
  obtain rfl := h s s₁ written₁ hs hfirst
  have hlocal : LocalIs mLocalIP mRemoteGW ({ s with tunConfig := e.apply s.tunConfig } : OpenVPNService π) := hs
  rw [Effect.apply_andThen]
  exact h' _ s' written₂ hlocal hsecond

theorem hasEffect_of_perform {mLocalIP : Option CIDRIP} {mRemoteGW : Option Str} {e : Effect π}
    (h : ∀ s s' status, LocalIs mLocalIP mRemoteGW s → m.perform android s = .ok (s', status) →
      s' = { s with tunConfig := e.apply s.tunConfig }) : HasEffect android mLocalIP mRemoteGW [m] e := by
  intro s s' written hs hrun
  obtain ⟨status, hperform⟩ := processNeedCommands_singleton hrun
  exact h s s' status hs hperform

/-- What is pushed but does not depend on the configuration. -/
theorem hasEffect_const {mLocalIP : Option CIDRIP} {mRemoteGW : Option Str} {e : Effect π}
    (h : ∀ s : OpenVPNService π, m.perform android s = .ok ({ s with tunConfig := e.apply s.tunConfig }, "ok".toList)) :
    HasEffect android mLocalIP mRemoteGW [m] e := by
  refine hasEffect_of_perform fun s s' status' _ hperform => ?_
  rw [h] at hperform
  cases hperform
  rfl

theorem hasEffect_route (network netmask gateway : InAddr) (iface : Option Token) (mLocalIP : Option CIDRIP)
    (mRemoteGW : Option Str) :
    ∃ nets, HasEffect android mLocalIP mRemoteGW [.route network netmask gateway iface] { nets := nets } := by
  cases mLocalIP with
  | none =>
    refine ⟨[], hasEffect_of_perform fun s s' status hs hperform => ?_⟩
    rw [Message.perform, addRoute_none hs.1] at hperform
    cases hperform
    rw [Effect.apply_empty]
  | some mLocalIP =>
    cases hnet : routeNet network.print_in_addr_t netmask.print_in_addr_t gateway.print_in_addr_t
        (iface.map Token.text) mRemoteGW mLocalIP with
    | error e =>
      refine ⟨[], hasEffect_of_perform fun s s' status hs hperform => ?_⟩
      rw [Message.perform, addRoute_local hs.1, hs.2 (by simp), hnet] at hperform
      cases hperform
    | ok net =>
      refine ⟨[net], hasEffect_of_perform fun s s' status hs hperform => ?_⟩
      rw [Message.perform, addRoute_some hs.1 (by rw [hs.2 (by simp)]; exact hnet)] at hperform
      cases hperform
      simp [Effect.apply, addAll, OpenVPNService.addNet]

theorem hasEffect_route6 (network : Literal) (netbits : Fin 129) (device : Token) (mLocalIP : Option CIDRIP)
    (mRemoteGW : Option Str) :
    ∃ nets6, HasEffect android mLocalIP mRemoteGW [.route6 network netbits device] { nets6 := nets6 } := by
  cases hname : android.getAllByName network.text with
  | none =>
    refine ⟨[], hasEffect_of_perform fun s s' status hs hperform => ?_⟩
    rw [Message.perform, OpenVPNService.addRoutev6Device, addRoutev6_print, hname] at hperform
    cases hperform
    rw [Effect.apply_empty]
  | some address =>
    cases address with
    | inet4 bytes =>
      refine ⟨[], hasEffect_of_perform fun s s' status hs hperform => ?_⟩
      rw [Message.perform, OpenVPNService.addRoutev6Device, addRoutev6_print, hname] at hperform
      cases hperform
    | inet6 ip =>
      refine ⟨[.ofInet6Address ip netbits (OpenVPNService.isAndroidTunDevice (some device.text))],
        hasEffect_of_perform fun s s' status hs hperform => ?_⟩
      rw [Message.perform, OpenVPNService.addRoutev6Device, addRoutev6_print, hname] at hperform
      cases hperform
      simp [Effect.apply, addAll, OpenVPNService.addNet6]

/-- The effect of one setting, and the texts that it adds to the lists. -/
theorem exists_hasEffect_setting (hm : m.IsSetting) (mLocalIP : Option CIDRIP) (mRemoteGW : Option Str) :
    ∃ e : Effect π, HasEffect android mLocalIP mRemoteGW [m] e ∧ e.mDnslist = (Push.dnsText m).toList ∧
      e.mSearchDomainList = (Push.domainText m).toList := by
  cases m with
  | dns6server address =>
    refine ⟨{ mDnslist := [address.text] }, hasEffect_const fun s => ?_, rfl, rfl⟩
    simp [Message.perform, OpenVPNService.addDNS, Effect.apply, addAll]
    rfl
  | dnsserver address =>
    refine ⟨{ mDnslist := [address.print_in_addr_t] }, hasEffect_const fun s => ?_, rfl, rfl⟩
    simp [Message.perform, OpenVPNService.addDNS, Effect.apply, addAll]
    rfl
  | dnsdomain domain =>
    refine ⟨{ mSearchDomainList := [domain] }, hasEffect_const fun s => ?_, rfl, rfl⟩
    simp [Message.perform, OpenVPNService.addSearchDomain, Effect.apply, addAll]
    rfl
  | route network netmask gateway iface =>
    obtain ⟨nets, h⟩ := @hasEffect_route π android network netmask gateway iface mLocalIP mRemoteGW
    exact ⟨_, h, rfl, rfl⟩
  | route6 network netbits device =>
    obtain ⟨nets6, h⟩ := @hasEffect_route6 π android network netbits device mLocalIP mRemoteGW
    exact ⟨_, h, rfl, rfl⟩
  | ifconfig ip netmask mtu topology => cases hm
  | ifconfig6 ip netbits mtu =>
    refine ⟨{ mMtu := some (mtu : Nat), mLocalIPv6 := some (ip.text ++ "/" ++ decimal netbits) },
      hasEffect_const fun s => ?_, rfl, rfl⟩
    simp [Message.perform, OpenVPNService.setMtu, OpenVPNService.setLocalIPv6, Effect.apply, addAll]
    rfl
  | httpproxy host port =>
    by_cases hhost : ∀ c ∈ host, c ≠ ' '
    · refine ⟨{ mProxyInfo := android.buildDirectProxy host (port : Nat) }, hasEffect_const fun s => ?_, rfl, rfl⟩
      rw [Message.perform, if_pos hhost, OpenVPNService.addHttpProxy]
      cases hproxy : android.buildDirectProxy host (port : Nat) <;> simp [Effect.apply, addAll] <;> rfl
    · refine ⟨{}, hasEffect_const fun s => ?_, rfl, rfl⟩
      rw [Message.perform, if_neg hhost, Effect.apply_empty]
      rfl
  | persistTunAction => cases hm

/-- The settings of a list have one effect, and the route that is in front of no local address has none. -/
theorem exists_hasEffect (hms : ∀ m ∈ ms, m.IsSetting) (mLocalIP : Option CIDRIP) (mRemoteGW : Option Str) :
    ∃ e : Effect π, HasEffect android mLocalIP mRemoteGW ms e ∧ e.mDnslist = ms.filterMap Push.dnsText ∧
      e.mSearchDomainList = ms.filterMap Push.domainText := by
  induction ms with
  | nil =>
    refine ⟨{}, fun s s' written _ hrun => ?_, rfl, rfl⟩
    cases hrun
    rw [Effect.apply_empty]
  | cons m ms ih =>
    rw [List.forall_mem_cons] at hms
    obtain ⟨e, he, hdns, hdomains⟩ := @exists_hasEffect_setting π android m hms.1 mLocalIP mRemoteGW
    obtain ⟨e', he', hdns', hdomains'⟩ := ih hms.2
    have hboth : HasEffect android mLocalIP mRemoteGW ([m] ++ ms) (e.andThen e') := he.append he'
    refine ⟨e.andThen e', hboth, ?_, ?_⟩
    · rw [Effect.andThen, hdns, hdns', List.filterMap_cons]
      cases Push.dnsText m <;> rfl
    · rw [Effect.andThen, hdomains, hdomains', List.filterMap_cons]
      cases Push.domainText m <;> rfl

/-! ## The effect of a push -/

theorem addNets_eq (nets : List IpAddress) (s : OpenVPNService π) :
    s.addNets nets =
      { s with tunConfig := { s.tunConfig with mRoutes := ⟨addAll nets s.tunConfig.mRoutes.mIpAddresses⟩ } } := by
  induction nets generalizing s with
  | nil => rfl
  | cons net nets ih => exact ih (s.addNet net)

/-- What a push makes of a configuration. -/
structure PushEffect (π : Type) extends Effect π where
  mLocalIP : Option CIDRIP

/-- The configuration after the push. -/
def PushEffect.config (e : PushEffect π) (tc : TunConfig π) : TunConfig π :=
  { e.toEffect.apply tc with mLocalIP := e.mLocalIP }

/-- No local address is left from an earlier push. -/
def Push.FitsOn (p : Push) (s : OpenVPNService π) : Prop := p.ifconfig = none → s.tunConfig.mLocalIP = none

def IsPushEffect (android : Android π) (p : Push) (e : PushEffect π) : Prop :=
  ∀ s s' written, p.FitsOn s → processNeedCommands android p.messages s = .ok (s', written) →
    s'.tunConfig = e.config s.tunConfig ∧ s'.mLastTunCfg = s.mLastTunCfg

theorem exists_isPushEffect (p : Push) :
    ∃ e : PushEffect π, IsPushEffect android p e ∧ (p.ifconfig = none → e.mLocalIP = none) ∧ e.mDnslist = p.dns ∧
      e.mSearchDomainList = p.domains := by
  cases hp : p.ifconfig with
  | none =>
    obtain ⟨e, he, hdns, hdomains⟩ := @exists_hasEffect π android p.settings p.isSetting none none
    refine ⟨⟨e, none⟩, fun s s' written hs hrun => ?_, fun _ => rfl, hdns, hdomains⟩
    have hlocal : LocalIs none none s := ⟨hs hp, fun h => absurd rfl h⟩
    have hsettings : p.messages = p.settings := by simp [Push.messages, hp]
    rw [hsettings] at hrun
    obtain rfl := he s s' written hlocal hrun
    refine ⟨?_, rfl⟩
    simp [PushEffect.config, Effect.apply, hlocal.1]
  | some i =>
    obtain ⟨len, -, nets, -, hset⟩ := @setLocalIP_print π i.ip i.remote_netmask i.topology.text
    obtain ⟨e, he, hdns, hdomains⟩ := @exists_hasEffect π android p.settings p.isSetting
      (some ⟨i.ip.print_in_addr_t, len⟩) (some i.remote_netmask.print_in_addr_t)
    refine ⟨⟨({ nets := nets, mMtu := some (i.tun_mtu : Nat) } : Effect π).andThen e, some ⟨i.ip.print_in_addr_t, len⟩⟩,
      fun s s' written _ hrun => ?_, fun h => (by cases h), ?_, ?_⟩
    · have hmessages : p.messages = [i.message] ++ p.settings := by simp [Push.messages, hp]
      rw [hmessages] at hrun
      obtain ⟨s₁, written₁, written₂, hfirst, hsecond⟩ := processNeedCommands_append_ok hrun
      obtain ⟨status, hperform⟩ := processNeedCommands_singleton hfirst
      rw [Ifconfig.message, Message.perform, hset, addNets_eq] at hperform
      cases hperform
      obtain rfl := he _ s' written₂ ⟨rfl, fun _ => rfl⟩ hsecond
      simp [PushEffect.config, Effect.apply_andThen]
      simp [Effect.apply, addAll]
    · exact hdns
    · exact hdomains

end AllInSafe.Tun
