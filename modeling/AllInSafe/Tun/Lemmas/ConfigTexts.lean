import AllInSafe.Tun.Lemmas.RouteTexts

/-!
# The string of a configuration, taken apart
-/

namespace AllInSafe.Tun
open AllInSafe.Library AllInSafe.Config
open AllInSafe.Routes (IpAddress NetworkSpace)

variable {π : Type} {android : Android π} {tc tc' : TunConfig π}

/-! ## The local addresses -/

theorem slash_notMem_print (ip : InAddr) : '/' ∉ ip.print_in_addr_t := fun h => (print_in_addr_t_ne '/' h).2 rfl

theorem slash_notMem_literal (l : Literal) : '/' ∉ l.text := fun h => (ne_of_mem_addressChars (mem_literal h)).2 rfl

theorem colon_mem_colons {words : List Str} (h : 2 ≤ words.length) : ':' ∈ Literal.colons words := by
  rcases words with - | ⟨word, - | ⟨word', words⟩⟩
  · simp at h
  · simp at h
  · have hcons : Literal.colons (word :: word' :: words) = word ++ ':' :: Literal.colons (word' :: words) :=
      Str.intercalate_cons_cons ':' word word' words
    rw [hcons]
    simp

theorem colon_mem_literal (l : Literal) : ':' ∈ l.text := by
  have hsize := l.size
  cases hback : l.back with
  | none =>
    simp only [hback] at hsize
    simp only [Literal.text, hback]
    refine colon_mem_colons ?_
    simp only [Literal.groupTexts, List.length_append, List.length_map]
    omega
  | some back =>
    simp only [Literal.text, hback]
    simp

theorem colon_notMem_print (ip : InAddr) : ':' ∉ ip.print_in_addr_t := by
  intro h
  have hmem := mem_print_in_addr_t h
  revert hmem
  decide

theorem colon_notMem_decimal (n : Nat) : ':' ∉ decimal n := by
  intro h
  have hmem := mem_decimal h
  revert hmem
  decide

/-- The local addresses in the string. -/
def localText (tc : TunConfig π) : Str := tc.mLocalIP.elim [] CIDRIP.toString ++ tc.mLocalIPv6.getD []

theorem localText_of_some {ip : CIDRIP} (h : tc.mLocalIP = some ip) :
    localText tc = ip.mIp ++ '/' :: decimal ip.len ++ tc.mLocalIPv6.getD [] := by
  rw [localText, h]
  rfl

theorem colon_mem_localText_iff (h : tc.Pushable android) : ':' ∈ localText tc ↔ tc.mLocalIPv6.isSome = true := by
  have hv4 : ':' ∉ tc.mLocalIP.elim [] CIDRIP.toString := by
    cases hip : tc.mLocalIP with
    | none => simp
    | some ip =>
      obtain ⟨-, a, ha⟩ := h.mLocalIP ip hip
      have hcolon := colon_notMem_print a
      have hdecimal := colon_notMem_decimal ip.len
      have htext : ip.toString = ip.mIp ++ '/' :: decimal ip.len := rfl
      rw [← ha] at hcolon
      simp [htext, hcolon, hdecimal]
  rw [localText, List.mem_append, or_iff_right hv4]
  cases hip6 : tc.mLocalIPv6 with
  | none => simp
  | some text =>
    obtain ⟨l, n, rfl⟩ := h.mLocalIPv6 text hip6
    simp [colon_mem_literal l]

theorem count_slash_localText (h : tc.Pushable android) :
    (localText tc).count '/' = tc.mLocalIP.isSome.toNat + tc.mLocalIPv6.isSome.toNat := by
  rw [localText, List.count_append]
  congr 1
  · cases hip : tc.mLocalIP with
    | none => rfl
    | some ip =>
      obtain ⟨-, a, ha⟩ := h.mLocalIP ip hip
      have hslash := List.count_eq_zero.mpr (slash_notMem_print a)
      have hdecimal : (decimal ip.len).count '/' = 0 := List.count_eq_zero.mpr (slash_notMem_decimal ip.len)
      rw [← ha] at hslash
      have htext : ip.toString = ip.mIp ++ '/' :: decimal ip.len := rfl
      simp [htext, hslash, hdecimal]
  · cases hip6 : tc.mLocalIPv6 with
    | none => rfl
    | some text =>
      obtain ⟨l, n, rfl⟩ := h.mLocalIPv6 text hip6
      have hslash := List.count_eq_zero.mpr (slash_notMem_literal l)
      have hdecimal := List.count_eq_zero.mpr (slash_notMem_decimal n)
      simp [hslash, hdecimal]

theorem option_ext {o o' : Option Str} (hsome : o.isSome = o'.isSome) (h : o.getD [] = o'.getD []) : o = o' := by
  cases o <;> cases o' <;> simp_all

theorem DigitMoved.ne_nil {n n' : Nat} {t t' : Str} (h : DigitMoved n t n' t') : t ≠ [] ∨ t' ≠ [] := by
  rcases h with ⟨-, d, -, -, rfl⟩ | ⟨-, d, -, -, rfl⟩
  · simp
  · simp

theorem isSome_of_localText (h : tc.Pushable android) (h' : tc'.Pushable android) (heq : localText tc = localText tc') :
    tc.mLocalIP.isSome = tc'.mLocalIP.isSome ∧ tc.mLocalIPv6.isSome = tc'.mLocalIPv6.isSome := by
  have hsome6 : tc.mLocalIPv6.isSome = tc'.mLocalIPv6.isSome := by
    rw [Bool.eq_iff_iff, ← colon_mem_localText_iff h, ← colon_mem_localText_iff h', heq]
  refine ⟨?_, hsome6⟩
  have hcount := count_slash_localText h
  rw [heq, count_slash_localText h', hsome6] at hcount
  have hnat : tc.mLocalIP.isSome.toNat = tc'.mLocalIP.isSome.toNat := by omega
  revert hnat
  cases tc.mLocalIP.isSome <;> cases tc'.mLocalIP.isSome <;> decide

theorem localText_some_iff {ip ip' : CIDRIP} (h : tc.Pushable android) (h' : tc'.Pushable android)
    (hip : tc.mLocalIP = some ip) (hip' : tc'.mLocalIP = some ip') :
    localText tc = localText tc' ↔ ip.mIp = ip'.mIp ∧ (ip.len = ip'.len ∧ tc.mLocalIPv6.getD [] = tc'.mLocalIPv6.getD [] ∨
      DigitMoved ip.len (tc.mLocalIPv6.getD []) ip'.len (tc'.mLocalIPv6.getD [])) := by
  obtain ⟨hlen, a, ha⟩ := h.mLocalIP ip hip
  obtain ⟨hlen', a', ha'⟩ := h'.mLocalIP ip' hip'
  have hslash := slash_notMem_print a
  have hslash' := slash_notMem_print a'
  rw [← ha] at hslash
  rw [← ha'] at hslash'
  rw [localText_of_some hip, localText_of_some hip', slash_append_iff hslash hslash' (by omega) (by omega)]

theorem localText_eq_iff (h : tc.Pushable android) (h' : tc'.Pushable android) :
    localText tc = localText tc' ↔
      tc.mLocalIP = tc'.mLocalIP ∧ tc.mLocalIPv6 = tc'.mLocalIPv6 ∨ LocalDigitMoved tc tc' := by
  constructor
  · intro heq
    obtain ⟨hsome, hsome6⟩ := isSome_of_localText h h' heq
    cases hip : tc.mLocalIP with
    | none =>
      have hip' : tc'.mLocalIP = none := by simpa [hip] using hsome.symm
      rw [localText, localText, hip, hip'] at heq
      exact .inl ⟨hip'.symm, option_ext hsome6 heq⟩
    | some ip =>
      obtain ⟨ip', hip'⟩ := Option.isSome_iff_exists.mp (hsome.symm.trans (by simp [hip]))
      obtain ⟨hmIp, ⟨hlen, htext⟩ | hmoved⟩ := (localText_some_iff h h' hip hip').mp heq
      · have hcidr : ip = ip' := by
          cases ip
          cases ip'
          simp_all
        exact .inl ⟨by rw [hip', hcidr], option_ext hsome6 htext⟩
      · refine .inr ?_
        cases hip6 : tc.mLocalIPv6 with
        | none =>
          have hip6' : tc'.mLocalIPv6 = none := by simpa [hip6] using hsome6.symm
          have hne := hmoved.ne_nil
          rw [hip6, hip6'] at hne
          simp at hne
        | some text =>
          obtain ⟨text', hip6'⟩ := Option.isSome_iff_exists.mp (hsome6.symm.trans (by simp [hip6]))
          rw [hip6, hip6'] at hmoved
          exact ⟨ip, ip', text, text', hip, hip', hip6, hip6', hmIp, hmoved⟩
  · rintro (⟨hip, hip6⟩ | ⟨ip, ip', text, text', hip, hip', hip6, hip6', hmIp, hmoved⟩)
    · rw [localText, localText, hip, hip6]
    · refine (localText_some_iff h h' hip hip').mpr ⟨hmIp, .inr ?_⟩
      rw [hip6, hip6']
      exact hmoved

/-! ## The labels -/

/-- The labels are variables here: no step looks into them. -/
theorem regroup {p l₁ l₂ l₃ l₄ l₅ l₆ m₁ m₂ m₃ m₄ m₅ m₆ : Str} (h₁ : l₁ = 'r' :: m₁) (h₂ : l₂ = 'e' :: 'x' :: m₂)
    (h₃ : l₃ = 'd' :: 'n' :: m₃) (h₄ : l₄ = 'd' :: 'o' :: m₄) (h₅ : l₅ = m₅ ++ [' ']) (h₆ : l₆ = m₆ ++ [' '])
    (ips ips6 routes routes6 excluded excluded6 dns domains mtu proxy : Str) :
    p ++ ips ++ ips6 ++ l₁ ++ routes ++ routes6 ++ l₂ ++ excluded ++ excluded6 ++ l₃ ++ dns ++ l₄ ++ domains ++ l₅ ++
        mtu ++ l₆ ++ proxy =
      p ++ ((ips ++ ips6) ++ 'r' :: (m₁ ++ ((routes ++ routes6 ++ ['e']) ++ 'x' :: (m₂ ++
        ((excluded ++ excluded6 ++ ['d']) ++ 'n' :: (m₃ ++ ((dns ++ ['d']) ++ 'o' :: (m₄ ++
          (((domains ++ m₅) ++ ' ' :: (mtu ++ m₆)) ++ ' ' :: proxy))))))))) := by
  subst h₁ h₂ h₃ h₄ h₅ h₆
  simp

/-- Where no part holds the character behind it, the parts are determined. -/
theorem parts_inj {p m₁ m₂ m₃ m₄ ips routes excluded dns rest ips' routes' excluded' dns' rest' : Str}
    (hips : 'r' ∉ ips) (hroutes : 'x' ∉ routes) (hexcluded : 'n' ∉ excluded) (hdns : 'o' ∉ dns)
    (hips' : 'r' ∉ ips') (hroutes' : 'x' ∉ routes') (hexcluded' : 'n' ∉ excluded') (hdns' : 'o' ∉ dns')
    (h : p ++ (ips ++ 'r' :: (m₁ ++ ((routes ++ ['e']) ++ 'x' :: (m₂ ++ ((excluded ++ ['d']) ++ 'n' :: (m₃ ++
        ((dns ++ ['d']) ++ 'o' :: (m₄ ++ rest)))))))) =
      p ++ (ips' ++ 'r' :: (m₁ ++ ((routes' ++ ['e']) ++ 'x' :: (m₂ ++ ((excluded' ++ ['d']) ++ 'n' :: (m₃ ++
        ((dns' ++ ['d']) ++ 'o' :: (m₄ ++ rest'))))))))) :
    ips = ips' ∧ routes = routes' ∧ excluded = excluded' ∧ dns = dns' ∧ rest = rest' := by
  have hr : 'x' ∉ routes ++ ['e'] := by simp [hroutes]
  have hr' : 'x' ∉ routes' ++ ['e'] := by simp [hroutes']
  have hx : 'n' ∉ excluded ++ ['d'] := by simp [hexcluded]
  have hx' : 'n' ∉ excluded' ++ ['d'] := by simp [hexcluded']
  have hd : 'o' ∉ dns ++ ['d'] := by simp [hdns]
  have hd' : 'o' ∉ dns' ++ ['d'] := by simp [hdns']
  obtain ⟨rfl, hbehind⟩ := Str.append_cons_inj hips hips' (List.append_cancel_left h)
  obtain ⟨hr, hbehind⟩ := Str.append_cons_inj hr hr' (List.append_cancel_left hbehind)
  obtain ⟨hx, hbehind⟩ := Str.append_cons_inj hx hx' (List.append_cancel_left hbehind)
  obtain ⟨hd, hbehind⟩ := Str.append_cons_inj hd hd' (List.append_cancel_left hbehind)
  exact ⟨rfl, List.append_cancel_right hr, List.append_cancel_right hx, List.append_cancel_right hd,
    List.append_cancel_left hbehind⟩

theorem layout_eq (ips ips6 routes routes6 excluded excluded6 dns domains mtu proxy : Str) :
    layout ips ips6 routes routes6 excluded excluded6 dns domains mtu proxy =
      "TUNCFG UNQIUE STRING ips:".toList ++ ((ips ++ ips6) ++ 'r' :: ("outes: ".toList ++
        ((routes ++ routes6 ++ ['e']) ++ 'x' :: ("cl. routes:".toList ++ ((excluded ++ excluded6 ++ ['d']) ++ 'n' ::
          ("s: ".toList ++ ((dns ++ ['d']) ++ 'o' :: ("main: ".toList ++
            (((domains ++ "mtu:".toList) ++ ' ' :: (mtu ++ "proxyInfo:".toList)) ++ ' ' :: proxy))))))))) :=
  regroup (by decide) (by decide) (by decide) (by decide) (by decide) (by decide) ips ips6 routes routes6 excluded excluded6
    dns domains mtu proxy

/-! ## MTU and proxy -/

theorem blank_notMem_decimal (n : Nat) : ' ' ∉ decimal n := fun h => (decimal_ne ' ' h).1 rfl

theorem decimal_ne_null (n : Nat) : "null".toList ≠ decimal n := by
  intro h
  have hmem : 'n' ∈ decimal n := h ▸ (by decide : 'n' ∈ "null".toList)
  have hdigit := mem_decimal hmem
  revert hdigit
  decide

/-- The text of the proxy is what follows the last blank, or the last two. -/
theorem proxyInfo_inj {x x' : Str} (hproxy : DirectProxyText android) (h : tc.Pushable android)
    (h' : tc'.Pushable android)
    (heq : x ++ ' ' :: tc.mProxyInfo.elim "null".toList android.proxyText =
      x' ++ ' ' :: tc'.mProxyInfo.elim "null".toList android.proxyText) :
    x = x' ∧ tc.mProxyInfo = tc'.mProxyInfo := by
  have hnull : ' ' ∉ "null".toList := by decide
  have htext : ∀ {x host : Str} {port : Nat} {proxyInfo : π}, android.buildDirectProxy host port = some proxyInfo →
      x ++ ' ' :: android.proxyText proxyInfo = (x ++ ' ' :: ('[' :: (host ++ [']']))) ++ ' ' :: decimal port := by
    intro x host port proxyInfo hbuild
    have hport : decimalInt port = decimal port := rfl
    rw [hproxy host port proxyInfo hbuild, hport]
    simp
  have hbracket : ∀ {host : Str}, (∀ c ∈ host, c ≠ ' ') → ' ' ∉ '[' :: (host ++ [']']) := by
    intro host hhost hmem
    simp only [List.mem_cons, List.mem_append, List.not_mem_nil, or_false] at hmem
    rcases hmem with hmem | hmem | hmem
    · revert hmem; decide
    · exact hhost ' ' hmem rfl
    · revert hmem; decide
  cases hinfo : tc.mProxyInfo with
  | none =>
    cases hinfo' : tc'.mProxyInfo with
    | none =>
      rw [hinfo, hinfo'] at heq
      exact ⟨(Str.append_cons_inj_last hnull hnull heq).1, rfl⟩
    | some proxyInfo' =>
      obtain ⟨host', port', hhost', hbuild'⟩ := h'.mProxyInfo proxyInfo' hinfo'
      rw [hinfo, hinfo', Option.elim_some, htext hbuild'] at heq
      exact absurd (Str.append_cons_inj_last hnull (blank_notMem_decimal port') heq).2 (decimal_ne_null port')
  | some proxyInfo =>
    obtain ⟨host, port, hhost, hbuild⟩ := h.mProxyInfo proxyInfo hinfo
    cases hinfo' : tc'.mProxyInfo with
    | none =>
      rw [hinfo, hinfo', Option.elim_some, htext hbuild] at heq
      exact absurd (Str.append_cons_inj_last (blank_notMem_decimal port) hnull heq).2.symm (decimal_ne_null port)
    | some proxyInfo' =>
      obtain ⟨host', port', hhost', hbuild'⟩ := h'.mProxyInfo proxyInfo' hinfo'
      rw [hinfo, hinfo', Option.elim_some, Option.elim_some, htext hbuild, htext hbuild'] at heq
      obtain ⟨heq, hport⟩ := Str.append_cons_inj_last (blank_notMem_decimal port) (blank_notMem_decimal port') heq
      obtain ⟨rfl, hhosts⟩ := Str.append_cons_inj_last (hbracket hhost) (hbracket hhost') heq
      obtain rfl := decimal_inj hport
      obtain rfl := List.append_cancel_right (List.cons.inj hhosts).2
      rw [hbuild] at hbuild'
      exact ⟨rfl, hbuild'⟩

/-! ## Lists -/

theorem joined_domains_iff {domains domains' : List Str} :
    joined domains = joined domains' ↔ domainParts domains = domainParts domains' := by
  have hparts : ∀ domains, domainParts domains = Str.parts (· = '|') (joined domains) := by
    intro domains
    rw [domainParts]
    split
    case isTrue hnil => rw [hnil]; rfl
    case isFalse hne => exact (Str.parts_intercalate_flatMap (by decide) hne).symm
  rw [hparts, hparts]
  constructor
  · intro h
    rw [h]
  · intro h
    have hjoined := congrArg (List.intercalate ['|']) h
    rwa [Str.intercalate_parts, Str.intercalate_parts] at hjoined

theorem mem_joined {texts : List Str} {c : Char} (h : c ∈ joined texts) : c = '|' ∨ ∃ t ∈ texts, c ∈ t :=
  Str.mem_intercalate h

/-- The texts of DNS servers. -/
theorem mem_dns (h : tc.Pushable android) {dns : Str} (hdns : dns ∈ tc.mDnslist) :
    dns ≠ [] ∧ ∀ c ∈ dns, c ∈ addressChars := by
  have hdotted : ∀ c ∈ "0123456789.".toList, c ∈ addressChars := by decide
  rcases h.mDnslist dns hdns with ⟨ip, rfl⟩ | ⟨l, rfl⟩
  · exact ⟨(isToken_print ip).1, fun c hc => hdotted c (mem_print_in_addr_t hc)⟩
  · exact ⟨List.ne_nil_of_mem (colon_mem_literal l), fun c hc => mem_literal hc⟩

end AllInSafe.Tun
