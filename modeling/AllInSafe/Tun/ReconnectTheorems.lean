import AllInSafe.Tun.Lemmas.Opened
import Mathlib

/-!
# A tunnel over reconnects
-/

namespace AllInSafe.Tun
open AllInSafe.Library AllInSafe.Config
open AllInSafe.Routes (IpAddress Ascending)

variable {π : Type} {android : Android π} {s s' : OpenVPNService π} {p : Push} {e : PushEffect π}

/-! ## The answer -/

theorem mapM_eq_ok {α β : Type} {f : α → Result β} {g : α → β} (hf : ∀ a b, f a = .ok b → b = g a) {l : List α}
    {l' : List β} (h : l.mapM f = .ok l') : l' = l.map g := by
  induction l generalizing l' with
  | nil => cases h; rfl
  | cons a l ih =>
      rw [List.mapM_cons] at h
      obtain ⟨b, hb, h⟩ := bind_eq_ok.mp h
      obtain ⟨bs, hbs, h⟩ := bind_eq_ok.mp h
      cases h
      rw [hf a b hb, ih hbs, List.map_cons]

theorem netTextChecked_eq_ok {debug : Bool} {net : IpAddress} {text : Str} (h : netTextChecked debug net = .ok text) :
    text = netText net := by
  rw [netTextChecked] at h
  split at h
  · cases h
  · cases h; rfl

theorem networksText_eq_ok {debug : Bool} {space : Routes.NetworkSpace} {included : Bool} {text : Str}
    (h : networksText debug space included = .ok text) : text = spaceText space included := by
  obtain ⟨texts, htexts, h⟩ := bind_eq_ok.mp h
  cases h
  rw [mapM_eq_ok (fun _ _ => netTextChecked_eq_ok) htexts, spaceText]

theorem getTunConfigString_eq_ok {tc : TunConfig π} {text : Str} (h : getTunConfigString android (some tc) = .ok text) :
    text = configText android tc := by
  obtain ⟨routes, hroutes, h⟩ := bind_eq_ok.mp h
  obtain ⟨routes6, hroutes6, h⟩ := bind_eq_ok.mp h
  obtain ⟨excluded, hexcluded, h⟩ := bind_eq_ok.mp h
  obtain ⟨excluded6, hexcluded6, h⟩ := bind_eq_ok.mp h
  obtain rfl := networksText_eq_ok hroutes
  obtain rfl := networksText_eq_ok hroutes6
  obtain rfl := networksText_eq_ok hexcluded
  obtain rfl := networksText_eq_ok hexcluded6
  exact (Except.ok.inj h).symm

/-- The tunnel is kept where the two configurations have one text. -/
theorem answer_eq_keepTun_iff {last : TunConfig π} {status : Str} (hlast : s.mLastTunCfg = some last)
    (h : s.getTunReopenStatus android = .ok status) :
    [Message.persistTunAction.answer status] = keepTun ↔ configText android s.tunConfig = configText android last := by
  have hkeep : [Message.persistTunAction.answer "NOACTION".toList] = keepTun := by decide
  have hclose : [Message.persistTunAction.answer "OPEN_BEFORE_CLOSE".toList] ≠ keepTun := by decide
  obtain ⟨text, htext, h⟩ := bind_eq_ok.mp h
  obtain ⟨lastText, hlastText, h⟩ := bind_eq_ok.mp h
  rw [hlast] at hlastText
  rw [getTunConfigString_eq_ok htext, getTunConfigString_eq_ok hlastText] at h
  obtain rfl := Except.ok.inj h
  by_cases heq : configText android s.tunConfig = configText android last
  · simp only [heq, if_true, hkeep]
  · simp only [heq, if_false, hclose]

/-- One reconnect. -/
theorem reconnect_ok {written : List Str} {last : TunConfig π} (he : IsPushEffect android p e) (hs : p.FitsOn s)
    (hlast : s.mLastTunCfg = some last) (h : reconnect android p s = .ok (s', written)) :
    s'.tunConfig = e.config s.tunConfig ∧ s'.mLastTunCfg = some last ∧
      (written = keepTun ↔ configText android (e.config s.tunConfig) = configText android last) := by
  obtain ⟨⟨t, pushed⟩, hpush, h⟩ := bind_eq_ok.mp h
  obtain ⟨hconfig, hkept⟩ := he s t pushed hs hpush
  rw [hlast] at hkept
  simp only [Message.processNeedCommand_argument, Message.perform, bind_assoc, pure_bind] at h
  obtain ⟨status, hstatus, h⟩ := bind_eq_ok.mp h
  cases h
  rw [← hconfig]
  exact ⟨rfl, hkept, answer_eq_keepTun_iff hkept hstatus⟩

/-! ## Many reconnects -/

theorem fitsOn_iterate {k : Nat} (hlocal : p.ifconfig = none → e.mLocalIP = none)
    (hs : s.tunConfig = e.config^[k] {}) : p.FitsOn s := by
  intro hp
  rw [hs]
  cases k with
  | zero => rfl
  | succ k =>
    rw [Function.iterate_succ_apply']
    exact hlocal hp

/-- Each answer compares one more push with what was opened. -/
theorem reconnects_keepTun_iff {n k : Nat} {last : TunConfig π} {answers : List (List Str)}
    (he : IsPushEffect android p e) (hlocal : p.ifconfig = none → e.mLocalIP = none) (hs : s.tunConfig = e.config^[k] {})
    (hlast : s.mLastTunCfg = some last) (h : reconnects android p n s = .ok (s', answers)) :
    (∀ a ∈ answers, a = keepTun) ↔
      ∀ i < n, configText android (e.config^[k + i + 1] {}) = configText android last := by
  induction n generalizing s k answers with
  | zero =>
    cases h
    simp
  | succ n ih =>
    obtain ⟨⟨t, written⟩, hfirst, h⟩ := bind_eq_ok.mp h
    obtain ⟨⟨t', rest⟩, hrest, h⟩ := bind_eq_ok.mp h
    cases h
    obtain ⟨hconfig, hkept, hanswer⟩ := reconnect_ok he (fitsOn_iterate hlocal hs) hlast hfirst
    rw [hs, ← Function.iterate_succ_apply' e.config k] at hconfig hanswer
    rw [List.forall_mem_cons, hanswer, ih hconfig hkept hrest]
    constructor
    · rintro ⟨hzero, hsucc⟩ i hi
      cases i with
      | zero => exact hzero
      | succ i =>
        have hi' := hsucc i (by omega)
        rwa [show k + 1 + i + 1 = k + (i + 1) + 1 by omega] at hi'
    · intro hall
      refine ⟨hall 0 (by omega), fun i hi => ?_⟩
      have hi' := hall (i + 1) (by omega)
      rwa [show k + (i + 1) + 1 = k + 1 + i + 1 by omega] at hi'

/-! ## The configuration of two pushes -/

theorem ascending_nil : Ascending [] := List.Pairwise.nil

/-- The routes are known the second time; DNS servers and domains are there twice. -/
theorem config_config : e.config (e.config {}) =
    { e.config {} with
      mDnslist := e.mDnslist ++ e.mDnslist, mSearchDomainList := e.mSearchDomainList ++ e.mSearchDomainList } := by
  have htwice := e.toEffect.apply_apply {} ascending_nil ascending_nil e.mDnslist e.mSearchDomainList
  exact congrArg (fun tc : TunConfig π => { tc with mLocalIP := e.mLocalIP }) htwice

theorem iterate_config (hdns : e.mDnslist = []) (hdomains : e.mSearchDomainList = []) (i : Nat) :
    e.config^[i + 1] {} = e.config {} := by
  have hfixed : e.config (e.config {}) = e.config {} := by
    rw [config_config, hdns, hdomains]
    simp [PushEffect.config, Effect.apply, hdns, hdomains]
  rw [Function.iterate_succ_apply]
  exact Function.iterate_fixed hfixed i

/-- A second push of DNS servers or domains makes the text longer. -/
theorem configText_config_ne (h : e.mDnslist ≠ [] ∨ e.mSearchDomainList ≠ []) :
    configText android (e.config (e.config {})) ≠ configText android (e.config {}) := by
  obtain ⟨n, hlength⟩ := length_layout
  have hdns := length_joined_le e.mDnslist e.mDnslist
  have hdomains := length_joined_le e.mSearchDomainList e.mSearchDomainList
  have hlt : (joined e.mDnslist).length < (joined (e.mDnslist ++ e.mDnslist)).length ∨
      (joined e.mSearchDomainList).length < (joined (e.mSearchDomainList ++ e.mSearchDomainList)).length :=
    h.imp (fun h => length_joined_append _ h h) fun h => length_joined_append _ h h
  intro heq
  have hsame := congrArg List.length heq
  rw [config_config] at hsame
  simp only [configText, hlength, PushEffect.config, Effect.apply, List.nil_append] at hsame
  omega

/-- After any number of reconnects with the same push the tunnel was kept every time exactly when no network of the
device was news to the configuration, and no DNS server and no domain was pushed or there was one reconnect only. -/
theorem persistent_tun_iff {s₀ s₁ : OpenVPNService π} {n : Nat} {written answers : List (List Str)}
    (h₀ : s₀.tunConfig = {}) (hpush : processNeedCommands android p.messages s₀ = .ok (s, written))
    (hopen : s.openTun android = .ok s₁) (hn : 1 ≤ n) (hrun : reconnects android p n s₁ = .ok (s', answers)) :
    (∀ a ∈ answers, a = keepTun) ↔
      NothingLocal android s.tunConfig ∧ (n = 1 ∨ p.dns = [] ∧ p.domains = []) := by
  obtain ⟨e, he, hlocal, hdns, hdomains⟩ := @exists_isPushEffect π android p
  obtain ⟨hconfig, -⟩ := he s₀ s written (fun _ => by rw [h₀]) hpush
  rw [h₀] at hconfig
  obtain ⟨t, hprepare, hopen⟩ := bind_eq_ok.mp hopen
  obtain rfl := Except.ok.inj hopen
  have hsorted : InOrder s := by
    rw [InOrder, hconfig]
    exact ⟨ascending_nil.addAll, ascending_nil.addAll⟩
  obtain ⟨hgrown, hiff⟩ := prepareTun_grown hsorted hprepare
  rw [reconnects_keepTun_iff (k := 0) he hlocal rfl rfl hrun, ← hiff, ← hdns, ← hdomains]
  constructor
  · intro hall
    have hfirst : configText android s.tunConfig = configText android t.tunConfig := by
      rw [hconfig]
      exact hall 0 hn
    have hkept : t = s := by
      rcases hgrown with h | h
      · exact h
      · exact absurd (congrArg List.length hfirst) h.ne
    refine ⟨hkept, ?_⟩
    by_cases hone : n = 1
    · exact .inl hone
    · have hsecond := hall 1 (by omega)
      rw [hkept, hconfig] at hsecond
      by_contra hlists
      have hpushed : e.mDnslist ≠ [] ∨ e.mSearchDomainList ≠ [] := by
        by_contra h
        rw [not_or, not_not, not_not] at h
        exact hlists (.inr h)
      exact configText_config_ne hpushed hsecond
  · rintro ⟨rfl, hlists⟩ i hi
    rw [hconfig]
    rcases hlists with rfl | ⟨hnodns, hnodomains⟩
    · obtain rfl : i = 0 := by omega
      rfl
    · rw [Nat.zero_add, iterate_config hnodns hnodomains]

/-! ## Concrete reconnects -/

def wifiAndroid : Android Unit where
  debug := false
  getAllByName _ := none
  buildDirectProxy _ _ := none
  proxyText _ := []
  getLocalNetworks ipv6 := if ipv6 then [] else ["10.8.0.2/24"]
  doUseOpenVPN3 := false
  mAllowLocalLAN := some true
  tunSent := true

def subnetIfconfig : Ifconfig := ⟨⟨10, 8, 0, 2⟩, ⟨255, 255, 255, 0⟩, 1500, subnet⟩

/-- Without DNS servers. -/
def routePush : Push where
  ifconfig := some subnetIfconfig
  settings := [.route ⟨192, 168, 7, 0⟩ ⟨255, 255, 255, 0⟩ ⟨10, 8, 0, 1⟩ none]
  isSetting := by decide

def dnsPush : Push where
  ifconfig := some subnetIfconfig
  settings := [.dnsserver ⟨10, 8, 0, 1⟩]
  isSetting := by decide

theorem localCIDR_wifi : OpenVPNService.localCIDR "10.8.0.2/24".toList = .ok ⟨"10.8.0.2".toList, 24⟩ := by rfl

theorem persistent_tun_iff_routePush :
    ∃ (s s₁ s' : OpenVPNService Unit) (written answers : List (List Str)),
      processNeedCommands wifiAndroid routePush.messages {} = .ok (s, written) ∧ s.openTun wifiAndroid = .ok s₁ ∧
        reconnects wifiAndroid routePush 3 s₁ = .ok (s', answers) ∧ ∀ a ∈ answers, a = keepTun := by
  refine ⟨_, _, _, _, _, rfl, rfl, rfl,
    (@persistent_tun_iff Unit wifiAndroid _ _ routePush {} _ 3 _ _ rfl rfl rfl (by decide) rfl).mpr ⟨?_, .inr ⟨rfl, rfl⟩⟩⟩
  intro _ _ mLocalIP hlocal
  have hip : "10.8.0.2".toList = mLocalIP.mIp := congrArg CIDRIP.mIp (Option.some.inj hlocal)
  refine ⟨fun text htext cidr net hcidr _ => .inl ?_, fun text htext => by cases htext⟩
  obtain rfl := List.mem_singleton.mp htext
  obtain rfl := Except.ok.inj (localCIDR_wifi.symm.trans hcidr)
  exact hip

/-- The second time the DNS server is there twice. -/
theorem dns_pushed_twice :
    ∃ (s s₁ s' : OpenVPNService Unit) (written answers : List (List Str)),
      processNeedCommands wifiAndroid dnsPush.messages {} = .ok (s, written) ∧ s.openTun wifiAndroid = .ok s₁ ∧
        reconnects wifiAndroid dnsPush 2 s₁ = .ok (s', answers) ∧ ¬ ∀ a ∈ answers, a = keepTun := by
  refine ⟨_, _, _, _, _, rfl, rfl, rfl, ?_⟩
  decide

end AllInSafe.Tun
