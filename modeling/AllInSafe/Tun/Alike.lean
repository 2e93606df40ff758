import AllInSafe.Tun.Lemmas.Service

/-!
# Configurations that the string does not tell apart

Between an IPv4 address and the IPv6 address behind it, and between the last IPv4 and the first IPv6 route, the string has
no separator.
-/

namespace AllInSafe.Tun
open AllInSafe.Library AllInSafe.Config
open AllInSafe.Routes (IpAddress)

variable {π : Type}

/-! ## What OpenVPN can push -/

/-- `ProxyInfo.toString` for a proxy without a list of excluded hosts. -/
def DirectProxyText (android : Android π) : Prop :=
  ∀ host port proxyInfo, android.buildDirectProxy host port = some proxyInfo →
    android.proxyText proxyInfo = "[" ++ host ++ "] " ++ decimalInt port

/-- Every field holds what a push can put there; the lists and sets are any. -/
structure TunConfig.Pushable (android : Android π) (tc : TunConfig π) : Prop extends tc.Sound where
  mLocalIPv6 : ∀ text, tc.mLocalIPv6 = some text → ∃ (l : Literal) (n : Fin 129), text = l.text ++ "/" ++ decimal n
  mDnslist : ∀ dns ∈ tc.mDnslist, (∃ ip : InAddr, dns = ip.print_in_addr_t) ∨ ∃ l : Literal, dns = l.text
  mMtu : ∃ mtu : Nat, tc.mMtu = mtu
  mProxyInfo : ∀ proxyInfo, tc.mProxyInfo = some proxyInfo →
    ∃ (host : Str) (port : Nat), (∀ c ∈ host, c ≠ ' ') ∧ android.buildDirectProxy host port = some proxyInfo

/-- The same addresses, routes, DNS servers, domains, MTU and proxy. -/
structure TunConfig.Same (tc tc' : TunConfig π) : Prop where
  mLocalIP : tc.mLocalIP = tc'.mLocalIP
  mLocalIPv6 : tc.mLocalIPv6 = tc'.mLocalIPv6
  mRoutes : ∀ included, getNetworks tc.mRoutes included = getNetworks tc'.mRoutes included
  mRoutesv6 : ∀ included, getNetworks tc.mRoutesv6 included = getNetworks tc'.mRoutesv6 included
  mDnslist : tc.mDnslist = tc'.mDnslist
  mSearchDomainList : tc.mSearchDomainList = tc'.mSearchDomainList
  mMtu : tc.mMtu = tc'.mMtu
  mProxyInfo : tc.mProxyInfo = tc'.mProxyInfo

/-! ## What is lost -/

/-- Two numbers that end in groups of zeros, and are the same but for how many. -/
def ZerosMoved (n n' : Nat) : Prop :=
  ∃ g k k', 0 < k ∧ 0 < k' ∧ n = g * 0x10000 ^ k ∧ n' = g * 0x10000 ^ k'

def AlikeNets6 (net net' : IpAddress) : Prop :=
  net.networkMask = net'.networkMask ∧
    (net.netAddress = net'.netAddress ∨ ZerosMoved net.netAddress net'.netAddress)

/-- The last digit of the one number is the first character of the text behind the other. -/
def Moved (n : Nat) (text : Str) (n' : Nat) (text' : Str) : Prop :=
  0 < n ∧ ∃ d < 10, n' = 10 * n + d ∧ text = d.digitChar :: text'

def DigitMoved (n : Nat) (text : Str) (n' : Nat) (text' : Str) : Prop :=
  Moved n text n' text' ∨ Moved n' text' n text

/-- A digit of the prefix length may belong to the IPv6 address. -/
def LocalDigitMoved (tc tc' : TunConfig π) : Prop :=
  ∃ ip ip' text text', tc.mLocalIP = some ip ∧ tc'.mLocalIP = some ip' ∧ tc.mLocalIPv6 = some text ∧
    tc'.mLocalIPv6 = some text' ∧ ip.mIp = ip'.mIp ∧ DigitMoved ip.len text ip'.len text'

/-- A digit of the last IPv4 route may belong to the first IPv6 route. -/
def RouteDigitMoved (nets nets6 nets' nets6' : List IpAddress) : Prop :=
  ∃ front net net' net6 net6' back back', nets = front ++ [net] ∧ nets' = front ++ [net'] ∧ nets6 = net6 :: back ∧
    nets6' = net6' :: back' ∧ net.netAddress = net'.netAddress ∧
    DigitMoved net.networkMask (netText net6) net'.networkMask (netText net6') ∧ List.Forall₂ AlikeNets6 back back'

def RoutesAlike (nets nets6 nets' nets6' : List IpAddress) : Prop :=
  nets = nets' ∧ List.Forall₂ AlikeNets6 nets6 nets6' ∨ RouteDigitMoved nets nets6 nets' nets6'

/-- The domains, each cut at its bars; no domain is like the empty one. -/
def domainParts (domains : List Str) : List Str :=
  if domains = [] then [[]] else domains.flatMap (Str.parts (· = '|'))

/-- Nothing that the string shows differs. -/
structure TunConfig.Alike (tc tc' : TunConfig π) : Prop where
  addresses : tc.mLocalIP = tc'.mLocalIP ∧ tc.mLocalIPv6 = tc'.mLocalIPv6 ∨ LocalDigitMoved tc tc'
  routes : ∀ included, RoutesAlike (getNetworks tc.mRoutes included) (getNetworks tc.mRoutesv6 included)
    (getNetworks tc'.mRoutes included) (getNetworks tc'.mRoutesv6 included)
  mDnslist : tc.mDnslist = tc'.mDnslist
  mSearchDomainList : domainParts tc.mSearchDomainList = domainParts tc'.mSearchDomainList
  mMtu : tc.mMtu = tc'.mMtu
  mProxyInfo : tc.mProxyInfo = tc'.mProxyInfo

/-- Alike but for a digit that moved, for zeros at the end of an IPv6 route, or for bars in domains. -/
def TunConfig.Confused (tc tc' : TunConfig π) : Prop :=
  tc.Alike tc' ∧ (LocalDigitMoved tc tc' ∨
    (∃ included, RouteDigitMoved (getNetworks tc.mRoutes included) (getNetworks tc.mRoutesv6 included)
        (getNetworks tc'.mRoutes included) (getNetworks tc'.mRoutesv6 included) ∨
      getNetworks tc.mRoutesv6 included ≠ getNetworks tc'.mRoutesv6 included) ∨
    tc.mSearchDomainList ≠ tc'.mSearchDomainList)

theorem Moved.ne {n n' : Nat} {text text' : Str} (h : Moved n text n' text') : n ≠ n' := by
  obtain ⟨hpos, d, -, rfl, -⟩ := h
  omega

theorem DigitMoved.ne {n n' : Nat} {text text' : Str} (h : DigitMoved n text n' text') : n ≠ n' := by
  rcases h with h | h
  · exact h.ne
  · exact h.ne.symm

theorem LocalDigitMoved.ne {tc tc' : TunConfig π} (h : LocalDigitMoved tc tc') : tc.mLocalIP ≠ tc'.mLocalIP := by
  obtain ⟨ip, ip', text, text', hip, hip', -, -, -, hmoved⟩ := h
  rw [hip, hip']
  rintro ⟨⟩
  exact hmoved.ne rfl

theorem RouteDigitMoved.ne {nets nets6 nets' nets6' : List IpAddress} (h : RouteDigitMoved nets nets6 nets' nets6') :
    nets ≠ nets' := by
  obtain ⟨front, net, net', net6, net6', back, back', rfl, rfl, -, -, -, hmoved, -⟩ := h
  intro heq
  obtain rfl := List.singleton_inj.mp (List.append_cancel_left heq)
  exact hmoved.ne rfl

/-- Of what is alike exactly the confused differs. -/
theorem TunConfig.confused_iff {tc tc' : TunConfig π} (h : tc.Alike tc') : tc.Confused tc' ↔ ¬ tc.Same tc' := by
  constructor
  · rintro ⟨-, hmoved | ⟨included, hmoved | hne⟩ | hne⟩ hsame
    · exact hmoved.ne hsame.mLocalIP
    · exact hmoved.ne (hsame.mRoutes included)
    · exact hne (hsame.mRoutesv6 included)
    · exact hne hsame.mSearchDomainList
  · intro hsame
    refine ⟨h, ?_⟩
    by_contra hnot
    rw [not_or, not_or, not_exists, not_not] at hnot
    obtain ⟨hlocal, hroutes, hdomains⟩ := hnot
    obtain ⟨hip, hip6⟩ := h.addresses.resolve_right hlocal
    have hnets : ∀ included, getNetworks tc.mRoutes included = getNetworks tc'.mRoutes included :=
      fun included => ((h.routes included).resolve_right fun hm => hroutes included (.inl hm)).1
    have hnets6 : ∀ included, getNetworks tc.mRoutesv6 included = getNetworks tc'.mRoutesv6 included :=
      fun included => not_not.mp fun hne => hroutes included (.inr hne)
    exact hsame ⟨hip, hip6, hnets, hnets6, h.mDnslist, hdomains, h.mMtu, h.mProxyInfo⟩

end AllInSafe.Tun
