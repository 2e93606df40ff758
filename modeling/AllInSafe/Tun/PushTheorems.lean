import AllInSafe.Library.Outcome
import AllInSafe.Tun.Lemmas.Service

/-!
# Pushed settings and the thread that reads them
-/

namespace AllInSafe.Tun
open AllInSafe.Library AllInSafe.Config
open AllInSafe.Routes (IpAddress Inet6Address Contains treeSetAdd)

variable {π : Type} {android : Android π} {s s' : OpenVPNService π} {ms : List Message} {m : Message}

/-- The net of a pushed IPv6 route. -/
def net6 (network : Literal) (netbits : Fin 129) (device : Token) : IpAddress :=
  .ofInet6Address network.address netbits (OpenVPNService.isAndroidTunDevice (some device.text))

/-- Every message is answered by one command. -/
def Answered (ms : List Message) (written : List (List Str)) : Prop :=
  List.Forall₂ (fun m commands => ∃ status, commands = [m.answer status]) ms written

/-- Every IPv6 route of the messages is in the route set. -/
def Routed (ms : List Message) (s : OpenVPNService π) : Prop :=
  ∀ network netbits device, Message.route6 network netbits device ∈ ms →
    Contains s.tunConfig.mRoutesv6.mIpAddresses (net6 network netbits device)

/-- What the system finds for the IPv6 addresses of the messages. -/
def Resolves (android : Android π) (ms : List Message) : Prop :=
  ∀ network netbits device, Message.route6 network netbits device ∈ ms →
    android.getAllByName network.text = some (.ofAddress network.address)

/-- No IPv6 route is one to an IPv4 address. -/
def NoneMapped (ms : List Message) : Prop :=
  ∀ network netbits device, Message.route6 network netbits device ∈ ms → ¬ IsIPv4Mapped network.address

/-! ## One message -/

/-- The IPv6 routes of the one are among those of the other. -/
def KeepsRoutes (s s' : OpenVPNService π) : Prop :=
  ∀ net, Contains s.tunConfig.mRoutesv6.mIpAddresses net → Contains s'.tunConfig.mRoutesv6.mIpAddresses net

theorem OpenVPNService.Sound.addNet {net : IpAddress} (hs : s.Sound) (h : IsNet4 net) : (s.addNet net).Sound := by
  refine ⟨⟨hs.tunConfig.mLocalIP, fun n hn => ?_, hs.tunConfig.mRoutesv6⟩, hs.mLastTunCfg⟩
  rcases Routes.mem_treeSetAdd hn with rfl | hn
  · exact h
  · exact hs.tunConfig.mRoutes n hn

theorem OpenVPNService.Sound.addNets {nets : List IpAddress} (hs : s.Sound) (h : ∀ net ∈ nets, IsNet4 net) :
    (s.addNets nets).Sound := by
  induction nets generalizing s with
  | nil => exact hs
  | cons net nets ih =>
      rw [List.forall_mem_cons] at h
      exact ih (hs.addNet h.1) h.2

theorem OpenVPNService.Sound.addNet6 {net : IpAddress} (hs : s.Sound) (h : net.isV4 = false) : (s.addNet6 net).Sound := by
  refine ⟨⟨hs.tunConfig.mLocalIP, hs.tunConfig.mRoutes, fun n hn => ?_⟩, hs.mLastTunCfg⟩
  rcases Routes.mem_treeSetAdd hn with rfl | hn
  · exact h
  · exact hs.tunConfig.mRoutesv6 n hn

theorem mRoutesv6_addNets {nets : List IpAddress} : (s.addNets nets).tunConfig.mRoutesv6 = s.tunConfig.mRoutesv6 := by
  induction nets generalizing s with
  | nil => rfl
  | cons net nets ih => exact ih

theorem perform_route {network netmask gateway : InAddr} {iface : Option Token} (hs : s.Sound) :
    ∃ s', (Message.route network netmask gateway iface).perform android s = .ok (s', "ok".toList) ∧ s'.Sound ∧
      s'.tunConfig.mRoutesv6 = s.tunConfig.mRoutesv6 := by
  cases hlocal : s.tunConfig.mLocalIP with
  | none =>
    refine ⟨s, ?_, hs, rfl⟩
    rw [Message.perform, addRoute_none hlocal]
    rfl
  | some mLocalIP =>
    obtain ⟨-, ip, hip⟩ := hs.tunConfig.mLocalIP mLocalIP hlocal
    obtain ⟨net, hnet, hroute⟩ := routeNet_print network netmask gateway ip (iface.map Token.text) s.mRemoteGW mLocalIP.len
    rw [← hip] at hroute
    refine ⟨s.addNet net, ?_, hs.addNet hnet, rfl⟩
    rw [Message.perform, addRoute_some hlocal hroute]
    rfl

theorem perform_ifconfig {ip netmask : InAddr} {mtu : Fin (2 ^ 31)} {topology : Token} (hs : s.Sound) :
    ∃ s', (Message.ifconfig ip netmask mtu topology).perform android s = .ok (s', "ok".toList) ∧ s'.Sound ∧
      s'.tunConfig.mRoutesv6 = s.tunConfig.mRoutesv6 := by
  obtain ⟨len, hlen, nets, hnets, hset⟩ := @setLocalIP_print π ip netmask topology.text
  have hlocal : ({ s with tunConfig := { s.tunConfig with mLocalIP := some ⟨ip.print_in_addr_t, len⟩, mMtu := (mtu : Nat) } } :
      OpenVPNService π).Sound := by
    refine ⟨⟨fun a ha => ?_, hs.tunConfig.mRoutes, hs.tunConfig.mRoutesv6⟩, hs.mLastTunCfg⟩
    obtain rfl := Option.some.inj ha
    exact ⟨hlen, ip, rfl⟩
  have hadded := hlocal.addNets hnets
  have hperform : (Message.ifconfig ip netmask mtu topology).perform android s = .ok
      ({ ({ s with tunConfig := { s.tunConfig with mLocalIP := some ⟨ip.print_in_addr_t, len⟩, mMtu := (mtu : Nat) } } :
        OpenVPNService π).addNets nets with mRemoteGW := some netmask.print_in_addr_t }, "ok".toList) := by
    rw [Message.perform, hset]
    rfl
  exact ⟨_, hperform, ⟨hadded.tunConfig, hadded.mLastTunCfg⟩, mRoutesv6_addNets (s := { s with tunConfig := _ })⟩

theorem perform_route6 {network : Literal} {netbits : Fin 129} {device : Token} (hs : s.Sound)
    (hname : android.getAllByName network.text = some (.inet6 network.address)) :
    ∃ s', (Message.route6 network netbits device).perform android s = .ok (s', "ok".toList) ∧ s'.Sound ∧
      KeepsRoutes s s' ∧ Contains s'.tunConfig.mRoutesv6.mIpAddresses (net6 network netbits device) := by
  refine ⟨s.addNet6 (net6 network netbits device), ?_, hs.addNet6 rfl, fun net h => h.treeSetAdd,
    Routes.contains_treeSetAdd⟩
  rw [Message.perform, OpenVPNService.addRoutev6Device, addRoutev6_print, hname]
  rfl

/-- A message is answered, whatever was pushed before, unless it is a route to an IPv4 address in IPv6 form. -/
theorem perform_ok (hs : s.Sound) (m : Message)
    (hname : ∀ network netbits device, m = .route6 network netbits device →
      android.getAllByName network.text = some (.inet6 network.address)) :
    ∃ s' status, m.perform android s = .ok (s', status) ∧ s'.Sound ∧ KeepsRoutes s s' ∧ Routed [m] s' := by
  have hnone : ∀ {s' : OpenVPNService π} {m : Message}, (∀ network netbits device, m ≠ .route6 network netbits device) →
      Routed [m] s' := fun hm network netbits device h => absurd (List.mem_singleton.mp h).symm (hm network netbits device)
  cases m with
  | dns6server address =>
    exact ⟨_, _, rfl, ⟨⟨hs.1.1, hs.1.2, hs.1.3⟩, hs.2⟩, fun _ h => h, hnone (by simp)⟩
  | dnsserver address =>
    exact ⟨_, _, rfl, ⟨⟨hs.1.1, hs.1.2, hs.1.3⟩, hs.2⟩, fun _ h => h, hnone (by simp)⟩
  | dnsdomain domain =>
    exact ⟨_, _, rfl, ⟨⟨hs.1.1, hs.1.2, hs.1.3⟩, hs.2⟩, fun _ h => h, hnone (by simp)⟩
  | route network netmask gateway iface =>
    obtain ⟨s', hperform, hsound, hroutes⟩ := @perform_route π android s network netmask gateway iface hs
    refine ⟨s', _, hperform, hsound, fun net h => ?_, hnone (by simp)⟩
    rw [hroutes]
    exact h
  | route6 network netbits device =>
    obtain ⟨s', hperform, hsound, hkeeps, hroute⟩ := @perform_route6 π android s network netbits device hs
      (hname network netbits device rfl)
    refine ⟨s', _, hperform, hsound, hkeeps, fun network' netbits' device' h => ?_⟩
    obtain ⟨rfl, rfl, rfl⟩ := Message.route6.inj (List.mem_singleton.mp h)
    exact hroute
  | ifconfig ip netmask mtu topology =>
    obtain ⟨s', hperform, hsound, hroutes⟩ := @perform_ifconfig π android s ip netmask mtu topology hs
    refine ⟨s', _, hperform, hsound, fun net h => ?_, hnone (by simp)⟩
    rw [hroutes]
    exact h
  | ifconfig6 ip netbits mtu =>
    exact ⟨_, _, rfl, ⟨⟨hs.1.1, hs.1.2, hs.1.3⟩, hs.2⟩, fun _ h => h, hnone (by simp)⟩
  | httpproxy host port =>
    by_cases hhost : ∀ c ∈ host, c ≠ ' '
    · refine ⟨s.addHttpProxy android host (port : Nat), _, by rw [Message.perform, if_pos hhost]; rfl, ?_, ?_,
        hnone (by simp)⟩ <;> rw [OpenVPNService.addHttpProxy] <;> split
      · exact ⟨⟨hs.1.1, hs.1.2, hs.1.3⟩, hs.2⟩
      · exact hs
      · exact fun _ h => h
      · exact fun _ h => h
    · exact ⟨s, _, by rw [Message.perform, if_neg hhost]; rfl, hs, fun _ h => h, hnone (by simp)⟩
  | persistTunAction =>
    obtain ⟨status, hstatus⟩ := @getTunReopenStatus_sound π android s hs
    exact ⟨s, status, by rw [Message.perform, hstatus]; rfl, hs, fun _ h => h, hnone (by simp)⟩

/-! ## Every sequence -/

theorem processNeedCommands_cons_ok {written : List Str} {s₁ : OpenVPNService π}
    (h : processNeedCommand android m.argument s = .ok (s₁, written)) :
    processNeedCommands android (m :: ms) s =
      (do let r ← processNeedCommands android ms s₁; return (r.1, written :: r.2)) := by
  rw [processNeedCommands, h, bind_ok]

theorem processNeedCommands_ok (hs : s.Sound) (hnames : Resolves android ms) (hmapped : NoneMapped ms) :
    ∃ s' written, processNeedCommands android ms s = .ok (s', written) ∧ Answered ms written ∧ KeepsRoutes s s' ∧
      Routed ms s' := by
  induction ms generalizing s with
  | nil => exact ⟨s, [], rfl, .nil, fun _ h => h, fun _ _ _ h => by cases h⟩
  | cons m ms ih =>
    have hname : ∀ network netbits device, m = .route6 network netbits device →
        android.getAllByName network.text = some (.inet6 network.address) := by
      rintro network netbits device rfl
      rw [hnames network netbits device List.mem_cons_self, InetAddress.ofAddress,
        if_neg (hmapped network netbits device List.mem_cons_self)]
    obtain ⟨s₁, status, hperform, hsound, hkeeps, hrouted⟩ := @perform_ok π android s hs m hname
    obtain ⟨s', written, hrun, hanswered, hkeeps', hrouted'⟩ := ih hsound
      (fun network netbits device h => hnames network netbits device (List.mem_cons_of_mem m h))
      (fun network netbits device h => hmapped network netbits device (List.mem_cons_of_mem m h))
    have hcommand : processNeedCommand android m.argument s = .ok (s₁, [m.answer status]) := by
      rw [Message.processNeedCommand_argument, hperform]
      rfl
    refine ⟨s', [m.answer status] :: written, ?_, .cons ⟨status, rfl⟩ hanswered, fun net h => hkeeps' net (hkeeps net h),
      fun network netbits device h => ?_⟩
    · rw [processNeedCommands_cons_ok hcommand, hrun]
      rfl
    · rcases List.mem_cons.mp h with rfl | h
      · exact hkeeps' _ (hrouted network netbits device (List.mem_singleton_self _))
      · exact hrouted' network netbits device h

/-- A route to an IPv4 address in IPv6 form is not survived, whatever comes before it. -/
theorem noneMapped_of_ok {written : List (List Str)} (hnames : Resolves android ms)
    (h : processNeedCommands android ms s = .ok (s', written)) : NoneMapped ms := by
  induction ms generalizing s s' written with
  | nil => exact fun _ _ _ h => by cases h
  | cons m ms ih =>
    intro network netbits device hmem hmapped
    obtain ⟨r, hcommand, h⟩ := bind_eq_ok.mp h
    obtain ⟨r', hrest, -⟩ := bind_eq_ok.mp h
    rcases List.mem_cons.mp hmem with rfl | hmem
    · have hname := hnames network netbits device List.mem_cons_self
      rw [InetAddress.ofAddress, if_pos hmapped] at hname
      have hthrown : processNeedCommand android (Message.route6 network netbits device).argument s = .error .classCast := by
        rw [Message.processNeedCommand_argument, Message.perform, OpenVPNService.addRoutev6Device, addRoutev6_print, hname]
        rfl
      rw [hthrown] at hcommand
      cases hcommand
    · exact ih (fun network netbits device h => hnames network netbits device (List.mem_cons_of_mem m h)) hrest
        network netbits device hmem hmapped

/-- The messages of any sequence are read without an exception, each is answered once and all IPv6 routes are taken,
exactly when no IPv6 route is one to an IPv4 address. -/
theorem pushed_settings_iff (hs : s.Sound) (hnames : Resolves android ms) :
    (∃ s' written, processNeedCommands android ms s = .ok (s', written) ∧ Answered ms written ∧ Routed ms s') ↔
      NoneMapped ms := by
  constructor
  · rintro ⟨s', written, hrun, -, -⟩
    exact noneMapped_of_ok hnames hrun
  · intro hmapped
    obtain ⟨s', written, hrun, hanswered, -, hrouted⟩ := processNeedCommands_ok hs hnames hmapped
    exact ⟨s', written, hrun, hanswered, hrouted⟩

/-! ## Concrete pushes -/

/-- `::ffff:10.0.0.1` -/
def mappedNetwork : Literal := ⟨[], some [0xffff], some ⟨10, 0, 0, 1⟩, by decide⟩

/-- The device before it has a name. -/
def nullDevice : Token := ⟨"(null)", by decide, by decide⟩

def sampleAndroid : Android Unit where
  debug := true
  getAllByName text :=
    if text = plainNetwork.text then some (.ofAddress plainNetwork.address)
    else if text = mappedNetwork.text then some (.ofAddress mappedNetwork.address)
    else none
  buildDirectProxy _ _ := some ()
  proxyText _ := "[proxy] 8080"
  getLocalNetworks _ := []
  doUseOpenVPN3 := false
  mAllowLocalLAN := some true
  tunSent := true

def samplePush : List Message :=
  [.ifconfig ⟨10, 8, 0, 2⟩ ⟨255, 255, 255, 0⟩ 1500 subnet,
    .route ⟨192, 168, 7, 0⟩ ⟨255, 255, 255, 0⟩ ⟨10, 8, 0, 1⟩ none, .route6 plainNetwork 32 nullDevice, .persistTunAction]

theorem pushed_settings_iff_samplePush :
    ∃ s' written, processNeedCommands sampleAndroid samplePush {} = .ok (s', written) ∧ Answered samplePush written ∧
      Routed samplePush s' := by
  have hroute : ∀ network netbits device, Message.route6 network netbits device ∈ samplePush → network = plainNetwork := by
    intro network netbits device h
    simp only [samplePush, List.mem_cons, reduceCtorEq, Message.route6.injEq, false_or, or_false, List.not_mem_nil] at h
    exact h.1
  have hsound : ({} : OpenVPNService Unit).Sound := ⟨TunConfig.sound_empty, fun _ h => by cases h⟩
  refine (@pushed_settings_iff Unit sampleAndroid {} samplePush hsound ?_).mpr ?_
  · intro network netbits device h
    rw [hroute network netbits device h]
    simp [sampleAndroid]
  · intro network netbits device h
    rw [hroute network netbits device h]
    decide

/-- A single route is enough. -/
theorem mapped_route_thrown :
    processNeedCommands sampleAndroid [.route6 mappedNetwork 128 nullDevice] {} = .error .classCast := by
  rfl

end AllInSafe.Tun
