import AllInSafe.Library.Outcome
import AllInSafe.Tun.Lemmas.Effects

/-!
# What a configuration becomes when it is opened

The networks that the device is in are excluded; the text of the configuration gets longer with every new one.
-/

namespace AllInSafe.Tun
open AllInSafe.Library AllInSafe.Config
open AllInSafe.Routes (IpAddress NetworkSpace Ascending Contains treeSetAdd contains_treeSetAdd treeSetAdd_of_contains
  treeSetAdd_perm_of_not_contains)

variable {π : Type} {android : Android π} {s s' : OpenVPNService π} {tc : TunConfig π}

/-! ## The lengths of texts -/

theorem length_joined (texts : List Str) : (joined texts).length = (texts.map List.length).sum + (texts.length - 1) :=
  Str.length_intercalate '|' texts

theorem length_joined_cons {text : Str} (texts : List Str) (h : text ≠ []) :
    (joined texts).length < (joined (text :: texts)).length := by
  have hpos := List.length_pos_iff.mpr h
  simp only [length_joined, List.map_cons, List.sum_cons, List.length_cons]
  omega

theorem length_joined_perm {texts texts' : List Str} (h : texts.Perm texts') :
    (joined texts).length = (joined texts').length := by
  rw [length_joined, length_joined, (h.map List.length).sum_nat, h.length_eq]

/-- A list that is written twice is longer. -/
theorem length_joined_append {texts : List Str} (texts' : List Str) (h : texts ≠ []) (h' : texts' ≠ []) :
    (joined texts).length < (joined (texts ++ texts')).length := by
  have hpos := List.length_pos_iff.mpr h
  have hpos' := List.length_pos_iff.mpr h'
  simp only [length_joined, List.map_append, List.sum_append, List.length_append]
  omega

theorem length_joined_le (texts texts' : List Str) : (joined texts).length ≤ (joined (texts ++ texts')).length := by
  simp only [length_joined, List.map_append, List.sum_append, List.length_append]
  omega

theorem netText_ne_nil (net : IpAddress) : netText net ≠ [] := by
  simp [netText]

/-- A new net that is excluded. -/
theorem length_spaceText_add {space : NetworkSpace} {net : IpAddress} (hnet : net.included = false)
    (h : ¬ Contains space.mIpAddresses net) :
    (spaceText ⟨treeSetAdd net space.mIpAddresses⟩ true).length = (spaceText space true).length ∧
      (spaceText space false).length < (spaceText ⟨treeSetAdd net space.mIpAddresses⟩ false).length := by
  have hperm := treeSetAdd_perm_of_not_contains h
  constructor
  · have hfilter : (getNetworks ⟨treeSetAdd net space.mIpAddresses⟩ true).Perm (getNetworks space true) := by
      simpa [getNetworks, hnet] using hperm.filter fun ip => ip.included = true
    exact length_joined_perm (hfilter.map netText)
  · have hfilter : (getNetworks ⟨treeSetAdd net space.mIpAddresses⟩ false).Perm (net :: getNetworks space false) := by
      simpa [getNetworks, hnet] using hperm.filter fun ip => ip.included = false
    rw [spaceText, spaceText, length_joined_perm (hfilter.map netText)]
    exact length_joined_cons _ (netText_ne_nil net)

/-! ## The text of a service -/

/-- How long the text of the configuration is. -/
def size (android : Android π) (s : OpenVPNService π) : Nat := (configText android s.tunConfig).length

/-- The texts that stand between are variables here: no step looks into them. -/
theorem length_between (a b c d e f g ips ips6 routes routes6 excluded excluded6 dns domains mtu proxy : Str) :
    (a ++ ips ++ ips6 ++ b ++ routes ++ routes6 ++ c ++ excluded ++ excluded6 ++ d ++ dns ++ e ++ domains ++ f ++ mtu ++
      g ++ proxy).length = (a.length + b.length + c.length + d.length + e.length + f.length + g.length) +
        (ips.length + ips6.length + routes.length + routes6.length + excluded.length + excluded6.length + dns.length +
          domains.length + mtu.length + proxy.length) := by
  simp only [List.length_append]
  omega

theorem length_layout : ∃ n, ∀ ips ips6 routes routes6 excluded excluded6 dns domains mtu proxy,
    (layout ips ips6 routes routes6 excluded excluded6 dns domains mtu proxy).length =
      n + (ips.length + ips6.length + routes.length + routes6.length + excluded.length + excluded6.length + dns.length +
        domains.length + mtu.length + proxy.length) :=
  ⟨_, length_between _ _ _ _ _ _ _⟩

theorem size_addNet {net : IpAddress} (hnet : net.included = false)
    (h : ¬ Contains s.tunConfig.mRoutes.mIpAddresses net) : size android s < size android (s.addNet net) := by
  obtain ⟨hincluded, hexcluded⟩ := length_spaceText_add hnet h
  obtain ⟨n, hlength⟩ := length_layout
  simp only [size, configText, OpenVPNService.addNet, hlength, hincluded]
  omega

theorem size_addNet6 {net : IpAddress} (hnet : net.included = false)
    (h : ¬ Contains s.tunConfig.mRoutesv6.mIpAddresses net) : size android s < size android (s.addNet6 net) := by
  obtain ⟨hincluded, hexcluded⟩ := length_spaceText_add hnet h
  obtain ⟨n, hlength⟩ := length_layout
  simp only [size, configText, OpenVPNService.addNet6, hlength, hincluded]
  omega

/-! ## The networks of the device -/

/-- The sets of the configuration are in order. -/
def InOrder (s : OpenVPNService π) : Prop :=
  Ascending s.tunConfig.mRoutes.mIpAddresses ∧ Ascending s.tunConfig.mRoutesv6.mIpAddresses

theorem addNet_eq_self_iff {net : IpAddress} (hs : InOrder s) :
    s.addNet net = s ↔ Contains s.tunConfig.mRoutes.mIpAddresses net := by
  constructor
  · intro h
    have hadded : (s.addNet net).tunConfig.mRoutes.mIpAddresses = s.tunConfig.mRoutes.mIpAddresses := by rw [h]
    rw [← hadded]
    exact contains_treeSetAdd
  · intro h
    rw [OpenVPNService.addNet, treeSetAdd_of_contains hs.1 h]

theorem addNet6_eq_self_iff {net : IpAddress} (hs : InOrder s) :
    s.addNet6 net = s ↔ Contains s.tunConfig.mRoutesv6.mIpAddresses net := by
  constructor
  · intro h
    have hadded : (s.addNet6 net).tunConfig.mRoutesv6.mIpAddresses = s.tunConfig.mRoutesv6.mIpAddresses := by rw [h]
    rw [← hadded]
    exact contains_treeSetAdd
  · intro h
    rw [OpenVPNService.addNet6, treeSetAdd_of_contains hs.2 h]

theorem grown_addNet {net : IpAddress} (hs : InOrder s) (hnet : net.included = false) :
    Grown (size android) s (s.addNet net) := by
  by_cases h : Contains s.tunConfig.mRoutes.mIpAddresses net
  · exact .inl ((addNet_eq_self_iff hs).mpr h)
  · exact .inr (size_addNet hnet h)

theorem grown_addNet6 {net : IpAddress} (hs : InOrder s) (hnet : net.included = false) :
    Grown (size android) s (s.addNet6 net) := by
  by_cases h : Contains s.tunConfig.mRoutesv6.mIpAddresses net
  · exact .inl ((addNet6_eq_self_iff hs).mpr h)
  · exact .inr (size_addNet6 hnet h)

theorem liftM_eq_ok {α : Type} {m : Except Throwable α} {a : α} : (liftM m : Result α) = .ok a ↔ m = .ok a := by
  cases m with
  | error e => constructor <;> rintro ⟨⟩
  | ok b => constructor <;> rintro ⟨⟩ <;> rfl

/-- What an IPv4 network of the device does. -/
theorem addLocalNetwork_ok {mAllowLocalLAN : Bool} {mLocalIP : CIDRIP} {text : Str}
    (h : s.addLocalNetwork mAllowLocalLAN mLocalIP text = .ok s') :
    ∃ cidr, OpenVPNService.localCIDR text = .ok cidr ∧
      ((cidr.mIp = mLocalIP.mIp ∨ mAllowLocalLAN = false) ∧ s' = s ∨
        cidr.mIp ≠ mLocalIP.mIp ∧ mAllowLocalLAN = true ∧ ∃ net, netOf cidr false = .ok net ∧ s' = s.addNet net) := by
  obtain ⟨cidr, hcidr, h⟩ := bind_eq_ok.mp h
  refine ⟨cidr, hcidr, ?_⟩
  by_cases hip : cidr.mIp = mLocalIP.mIp
  · rw [if_pos hip] at h
    cases h
    exact .inl ⟨.inl hip, rfl⟩
  · rw [if_neg hip] at h
    cases hallow : mAllowLocalLAN with
    | false =>
      rw [hallow] at h
      cases h
      exact .inl ⟨.inr rfl, rfl⟩
    | true =>
      rw [hallow] at h
      obtain ⟨net, hnet, h⟩ := bind_eq_ok.mp h
      cases h
      exact .inr ⟨hip, rfl, net, hnet, rfl⟩

theorem addLocalNetwork_of_net {mLocalIP cidr : CIDRIP} {text : Str} {net : IpAddress}
    (hcidr : OpenVPNService.localCIDR text = .ok cidr) (hip : cidr.mIp ≠ mLocalIP.mIp)
    (hnet : netOf cidr false = .ok net) : s.addLocalNetwork true mLocalIP text = .ok (s.addNet net) := by
  simp only [OpenVPNService.addLocalNetwork, hcidr, bind, Except.bind, hip, if_false, if_true,
    OpenVPNService.addRouteNet, hnet]
  rfl

theorem included_netOf {cidr : CIDRIP} {included : Bool} {net : IpAddress} (h : netOf cidr included = .ok net) :
    net.included = included := by
  obtain ⟨n, -, h⟩ := bind_eq_ok.mp h
  cases h
  rfl

theorem addRoutev6_ok {text : Str} {included : Bool} (h : s.addRoutev6 android text included = .ok s') :
    ∃ found, OpenVPNService.net6Of android text included = .ok found ∧ s' = found.elim s fun net => s.addNet6 net := by
  obtain ⟨found, hfound, h⟩ := bind_eq_ok.mp h
  refine ⟨found, hfound, ?_⟩
  cases found with
  | none => cases h; rfl
  | some net => cases h; rfl

theorem addRoutev6_of_net {text : Str} {included : Bool} {net : IpAddress}
    (hnet : OpenVPNService.net6Of android text included = .ok (some net)) :
    s.addRoutev6 android text included = .ok (s.addNet6 net) := by
  rw [OpenVPNService.addRoutev6, hnet]
  rfl

theorem included_net6Of {text : Str} {included : Bool} {net : IpAddress}
    (h : OpenVPNService.net6Of android text included = .ok (some net)) : net.included = included := by
  obtain ⟨name, -, h⟩ := bind_eq_ok.mp h
  cases hname : android.getAllByName name with
  | none => rw [hname] at h; cases h
  | some address =>
    cases address with
    | inet4 bytes => rw [hname] at h; cases h
    | inet6 ip =>
      rw [hname] at h
      obtain ⟨part, -, h⟩ := bind_eq_ok.mp h
      obtain ⟨mask, -, h⟩ := bind_eq_ok.mp h
      cases h
      rfl

theorem InOrder.addNet {net : IpAddress} (hs : InOrder s) : InOrder (s.addNet net) := ⟨hs.1.treeSetAdd, hs.2⟩

theorem InOrder.addNet6 {net : IpAddress} (hs : InOrder s) : InOrder (s.addNet6 net) := ⟨hs.1, hs.2.treeSetAdd⟩

theorem grown_addLocalNetwork {mAllowLocalLAN : Bool} {mLocalIP : CIDRIP} {text : Str} (hs : InOrder s)
    (h : s.addLocalNetwork mAllowLocalLAN mLocalIP text = .ok s') : InOrder s' ∧ Grown (size android) s s' := by
  obtain ⟨cidr, -, ⟨-, rfl⟩ | ⟨-, -, net, hnet, rfl⟩⟩ := addLocalNetwork_ok h
  · exact ⟨hs, .refl⟩
  · exact ⟨hs.addNet, grown_addNet hs (included_netOf hnet)⟩

theorem grown_addRoutev6 {text : Str} (hs : InOrder s) (h : s.addRoutev6 android text false = .ok s') :
    InOrder s' ∧ Grown (size android) s s' := by
  obtain ⟨found, hfound, rfl⟩ := addRoutev6_ok h
  cases found with
  | none => exact ⟨hs, .refl⟩
  | some net => exact ⟨hs.addNet6, grown_addNet6 hs (included_net6Of hfound)⟩

/-! ## openTun -/

/-- A network of the device changes nothing when it has the local address or is excluded already. -/
theorem addLocalNetwork_eq_self_iff {mLocalIP : CIDRIP} {text : Str} (hs : InOrder s) :
    (∀ t, s.addLocalNetwork true mLocalIP text = .ok t → t = s) ↔
      ∀ cidr net, OpenVPNService.localCIDR text = .ok cidr → netOf cidr false = .ok net →
        cidr.mIp = mLocalIP.mIp ∨ Contains s.tunConfig.mRoutes.mIpAddresses net := by
  constructor
  · intro h cidr net hcidr hnet
    by_cases hip : cidr.mIp = mLocalIP.mIp
    · exact .inl hip
    · exact .inr ((addNet_eq_self_iff hs).mp (h _ (addLocalNetwork_of_net hcidr hip hnet)))
  · intro h t ht
    obtain ⟨cidr, hcidr, ⟨-, rfl⟩ | ⟨hip, -, net, hnet, rfl⟩⟩ := addLocalNetwork_ok ht
    · rfl
    · exact (addNet_eq_self_iff hs).mpr ((h cidr net hcidr hnet).resolve_left hip)

theorem addRoutev6_eq_self_iff {text : Str} (hs : InOrder s) :
    (∀ t, s.addRoutev6 android text false = .ok t → t = s) ↔
      ∀ net, OpenVPNService.net6Of android text false = .ok (some net) →
        Contains s.tunConfig.mRoutesv6.mIpAddresses net := by
  constructor
  · intro h net hnet
    exact (addNet6_eq_self_iff hs).mp (h _ (addRoutev6_of_net hnet))
  · intro h t ht
    obtain ⟨found, hfound, rfl⟩ := addRoutev6_ok ht
    cases found with
    | none => rfl
    | some net => exact (addNet6_eq_self_iff hs).mpr (h net hfound)

theorem addLocalNetworksToRoutes_grown {mLocalIP : CIDRIP} (hs : InOrder s)
    (h : s.addLocalNetworksToRoutes android true mLocalIP = .ok s') :
    Grown (size android) s s' ∧ (s' = s ↔
      (∀ text ∈ android.getLocalNetworks false, ∀ t, s.addLocalNetwork true mLocalIP text = .ok t → t = s) ∧
        ∀ text ∈ android.getLocalNetworks true, ∀ t, s.addRoutev6 android text false = .ok t → t = s) := by
  obtain ⟨t, hfirst, hsecond⟩ := bind_eq_ok.mp h
  obtain ⟨ht, hgrown, hiff⟩ := Grown.foldlM (size android)
    (fun s text t hs h => grown_addLocalNetwork hs (liftM_eq_ok.mp h)) hs hfirst
  obtain ⟨-, hgrown', hiff'⟩ := Grown.foldlM (size android) (fun s text t hs h => grown_addRoutev6 hs h) ht hsecond
  refine ⟨hgrown.trans hgrown', ?_⟩
  simp only [liftM_eq_ok] at hiff
  constructor
  · rintro rfl
    obtain rfl := hgrown.eq_of_trans hgrown'
    exact ⟨hiff.mp rfl, hiff'.mp rfl⟩
  · rintro ⟨hnets, hnets6⟩
    obtain rfl := hiff.mpr hnets
    exact hiff'.mpr hnets6

theorem addLocalNetworksToRoutes_forbidden {mLocalIP : CIDRIP} (hs : InOrder s)
    (h : s.addLocalNetworksToRoutes android false mLocalIP = .ok s') : s' = s := by
  obtain ⟨t, hfirst, hsecond⟩ := bind_eq_ok.mp h
  obtain ⟨-, -, hiff⟩ := Grown.foldlM (size android)
    (fun s text t hs h => grown_addLocalNetwork hs (liftM_eq_ok.mp h)) hs hfirst
  cases hsecond
  refine hiff.mpr fun text _ t ht => ?_
  obtain ⟨cidr, -, ⟨-, h⟩ | ⟨-, hallow, -⟩⟩ := addLocalNetwork_ok (liftM_eq_ok.mp ht)
  · exact h
  · cases hallow

/-- The configuration is opened as it was pushed exactly when the networks of the device are no news; it is longer
otherwise. -/
theorem prepareTun_grown (hs : InOrder s) (h : s.prepareTun android = .ok s') :
    Grown (size android) s s' ∧ (s' = s ↔ NothingLocal android s.tunConfig) := by
  cases hallow : android.mAllowLocalLAN with
  | none =>
    simp only [OpenVPNService.prepareTun, hallow] at h
    cases h
    exact ⟨.refl, by simp [NothingLocal, hallow]⟩
  | some allow =>
    cases hlocal : s.tunConfig.mLocalIP with
    | none =>
      simp only [OpenVPNService.prepareTun, hallow, hlocal] at h
      cases h
      exact ⟨.refl, by simp [NothingLocal, hlocal]⟩
    | some mLocalIP =>
      cases hthree : android.doUseOpenVPN3 with
      | true =>
        simp only [OpenVPNService.prepareTun, hallow, hlocal, hthree, if_true] at h
        cases h
        exact ⟨.refl, by simp [NothingLocal, hthree]⟩
      | false =>
        simp only [OpenVPNService.prepareTun, hallow, hlocal, hthree, Bool.false_eq_true, if_false] at h
        cases allow with
        | false =>
          obtain rfl := addLocalNetworksToRoutes_forbidden hs h
          exact ⟨.refl, by simp [NothingLocal, hallow]⟩
        | true =>
          obtain ⟨hgrown, hiff⟩ := addLocalNetworksToRoutes_grown hs h
          refine ⟨hgrown, hiff.trans ?_⟩
          simp only [addLocalNetwork_eq_self_iff hs, addRoutev6_eq_self_iff hs, NothingLocal, hallow, hlocal, hthree,
            Option.some.injEq, forall_eq', true_imp_iff]

end AllInSafe.Tun
