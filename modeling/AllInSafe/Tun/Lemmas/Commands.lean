import AllInSafe.Proxy.Lemmas.Query
import AllInSafe.Tun.Lemmas.Addresses

/-!
# The messages as the thread reads them
-/

namespace AllInSafe.Tun
open AllInSafe.Library AllInSafe.Config
open AllInSafe.Routes (IpAddress Inet6Address)

variable {π : Type} {android : Android π} {s s' : OpenVPNService π}

/-! ## The line -/

theorem command_ne (m : Message) : ∀ c ∈ m.command, c ≠ '\'' ∧ c ≠ ':' := by
  cases m with
  | dns6server address => exact (by decide : ∀ c ∈ "DNS6SERVER".toList, c ≠ '\'' ∧ c ≠ ':')
  | dnsserver address => exact (by decide : ∀ c ∈ "DNSSERVER".toList, c ≠ '\'' ∧ c ≠ ':')
  | dnsdomain domain => exact (by decide : ∀ c ∈ "DNSDOMAIN".toList, c ≠ '\'' ∧ c ≠ ':')
  | route network netmask gateway iface => exact (by decide : ∀ c ∈ "ROUTE".toList, c ≠ '\'' ∧ c ≠ ':')
  | route6 network netbits device => exact (by decide : ∀ c ∈ "ROUTE6".toList, c ≠ '\'' ∧ c ≠ ':')
  | ifconfig ip netmask mtu topology => exact (by decide : ∀ c ∈ "IFCONFIG".toList, c ≠ '\'' ∧ c ≠ ':')
  | ifconfig6 ip netbits mtu => exact (by decide : ∀ c ∈ "IFCONFIG6".toList, c ≠ '\'' ∧ c ≠ ':')
  | httpproxy host port => exact (by decide : ∀ c ∈ "HTTPPROXY".toList, c ≠ '\'' ∧ c ≠ ':')
  | persistTunAction => exact (by decide : ∀ c ∈ "PERSIST_TUN_ACTION".toList, c ≠ '\'' ∧ c ≠ ':')

theorem quoted_append {before word rest : Str} (hbefore : ∀ c ∈ before, c ≠ '\'') (hword : ∀ c ∈ word, c ≠ '\'') :
    quoted (before ++ '\'' :: (word ++ '\'' :: rest)) = .ok word := by
  have hdrop : ∀ c ∈ before, decide (c ≠ '\'') = true := fun c hc => decide_eq_true (hbefore c hc)
  have htake : ∀ c ∈ word, decide (c ≠ '\'') = true := fun c hc => decide_eq_true (hword c hc)
  have hmem : '\'' ∈ word ++ '\'' :: rest := by simp
  have hstop : List.dropWhile (fun c => decide (c ≠ '\'')) ('\'' :: (word ++ '\'' :: rest)) =
      '\'' :: (word ++ '\'' :: rest) := by simp
  have hend : List.takeWhile (fun c => decide (c ≠ '\'')) ('\'' :: rest) = [] := by simp
  rw [quoted, List.dropWhile_append_of_pos hdrop, hstop]
  simp only [hmem, if_true, List.takeWhile_append_of_pos htake, hend, List.append_nil]
  rfl

theorem append_quoted (before word after rest : Str) (c d : Char) :
    (before ++ [c]) ++ word ++ (d :: after) ++ rest = before ++ c :: (word ++ d :: (after ++ rest)) := by
  simp

theorem quoted_argument (m : Message) : quoted m.argument = .ok m.command := by
  have hneed : "Need '".toList = "Need ".toList ++ ['\''] := by decide
  have hmsg : "' confirmation MSG:".toList = '\'' :: " confirmation MSG:".toList := by decide
  have hbefore : ∀ c ∈ "Need ".toList, c ≠ '\'' := by decide
  have hargument := (congrArg₂ (fun need confirmation => need ++ m.command ++ confirmation ++ m.msg) hneed hmsg).trans
    (append_quoted "Need ".toList m.command " confirmation MSG:".toList m.msg '\'' '\'')
  have hquoted := @quoted_append "Need ".toList m.command (" confirmation MSG:".toList ++ m.msg) hbefore
    fun c hc => (command_ne m c hc).1
  exact (congrArg quoted hargument).trans hquoted

theorem append_colon (before word after rest : Str) (c : Char) :
    before ++ word ++ (after ++ [c]) ++ rest = (before ++ word ++ after) ++ c :: rest := by
  simp

theorem extra_argument (m : Message) : Config.get (Proxy.splitLimit ':' 1 m.argument) 1 = .ok m.msg := by
  have hmsg : "' confirmation MSG:".toList = "' confirmation MSG".toList ++ [':'] := by decide
  have hneed : ∀ c ∈ "Need '".toList, c ≠ ':' := by decide
  have hend : ∀ c ∈ "' confirmation MSG".toList, c ≠ ':' := by decide
  have hbefore : ∀ c ∈ "Need '".toList ++ m.command ++ "' confirmation MSG".toList, c ≠ ':' := by
    intro c hc
    rcases List.mem_append.mp hc with hc | hc
    · rcases List.mem_append.mp hc with hc | hc
      · exact hneed c hc
      · exact (command_ne m c hc).2
    · exact hend c hc
  have hargument := (congrArg (fun confirmation => "Need '".toList ++ m.command ++ confirmation ++ m.msg) hmsg).trans
    (append_colon "Need '".toList m.command "' confirmation MSG".toList m.msg ':')
  have hsplit := (congrArg (Proxy.splitLimit ':' 1) hargument).trans (Proxy.splitLimit_append hbefore)
  exact congrArg (fun parts => Config.get parts 1) hsplit

/-! ## The words of the messages -/

/-- A text without a blank, and not the empty one. -/
def IsToken (t : Str) : Prop := t ≠ [] ∧ ∀ d ∈ t, decide (d = ' ') = false

theorem isToken_of {t : Str} (hne : t ≠ []) (h : ∀ d ∈ t, d ≠ ' ') : IsToken t :=
  ⟨hne, fun d hd => decide_eq_false (h d hd)⟩

theorem isToken_print (ip : InAddr) : IsToken ip.print_in_addr_t :=
  isToken_of (by simp [InAddr.print_in_addr_t]) fun d hd => (print_in_addr_t_ne d hd).1

theorem isToken_decimal (n : Nat) : IsToken (decimal n) :=
  isToken_of (decimal_ne_nil n) fun d hd => (decimal_ne d hd).1

theorem Token.isToken (t : Token) : IsToken t.text := isToken_of t.ne_nil t.blank

/-- The text of an IPv6 address with its prefix length is one word. -/
theorem isToken_net6 (l : Literal) (n : Nat) : IsToken (l.text ++ "/" ++ decimal n) := by
  refine isToken_of (by simp) fun d hd => ?_
  rcases List.mem_append.mp hd with hd | hd
  · rcases List.mem_append.mp hd with hd | hd
    · exact (ne_of_mem_addressChars (mem_literal hd)).1
    · obtain rfl := List.mem_singleton.mp hd
      decide
  · exact (decimal_ne d hd).1

theorem split_tokens {words : List Str} (hne : words ≠ []) (h : ∀ w ∈ words, IsToken w) :
    Str.split (· = ' ') (List.intercalate [' '] words) = words :=
  Str.split_intercalate (by decide) hne h

theorem split_route {a b c : Str} (ha : IsToken a) (hb : IsToken b) (hc : IsToken c) :
    Str.split (· = ' ') (a ++ [' '] ++ b ++ [' '] ++ c) = [a, b, c] := by
  have hwords : a ++ [' '] ++ b ++ [' '] ++ c = List.intercalate [' '] [a, b, c] := by simp [List.intercalate]
  rw [hwords, split_tokens (by simp) (by simp [ha, hb, hc])]

theorem split_routeDev {a b c d e : Str} (ha : IsToken a) (hb : IsToken b) (hc : IsToken c) (hd : IsToken d)
    (he : IsToken e) : Str.split (· = ' ') (a ++ [' '] ++ b ++ [' '] ++ c ++ ([' '] ++ d ++ [' '] ++ e)) =
      [a, b, c, d, e] := by
  have hwords : a ++ [' '] ++ b ++ [' '] ++ c ++ ([' '] ++ d ++ [' '] ++ e) =
      List.intercalate [' '] [a, b, c, d, e] := by simp [List.intercalate]
  rw [hwords, split_tokens (by simp) (by simp [ha, hb, hc, hd, he])]

theorem split_ifconfig {a b c d : Str} (ha : IsToken a) (hb : IsToken b) (hc : IsToken c) (hd : IsToken d) :
    Str.split (· = ' ') (a ++ [' '] ++ b ++ [' '] ++ c ++ [' '] ++ d) = [a, b, c, d] := by
  have hwords : a ++ [' '] ++ b ++ [' '] ++ c ++ [' '] ++ d = List.intercalate [' '] [a, b, c, d] := by
    simp [List.intercalate]
  rw [hwords, split_tokens (by simp) (by simp [ha, hb, hc, hd])]

theorem split_pair {a b : Str} (ha : IsToken a) (hb : IsToken b) : Str.split (· = ' ') (a ++ [' '] ++ b) = [a, b] := by
  have hwords : a ++ [' '] ++ b = List.intercalate [' '] [a, b] := by simp [List.intercalate]
  rw [hwords, split_tokens (by simp) (by simp [ha, hb])]

theorem parseInt_decimal (n : Fin (2 ^ 31)) : parseInt (decimal n) = .ok ((n : Nat) : Int) := parseInteger_decimal n.isLt

/-! ## What the service is asked for -/

theorem lift_ok {α : Type} (a : α) : (liftM (Except.ok a : Except Throwable α) : Result α) = .ok a := rfl

theorem bind_ok {α β : Type} (a : α) (f : α → Result β) : ((Except.ok a : Result α) >>= f) = f a := rfl

theorem get_zero (word : Str) (words : List Str) : Config.get (word :: words) 0 = .ok word := rfl

theorem get_succ (word : Str) (words : List Str) (i : Nat) : Config.get (word :: words) (i + 1) = Config.get words i := rfl

theorem handleNeed_routeparts (extra : Str) :
    handleNeed android "ROUTE".toList extra s = (do
      let routeparts := Str.split (· = ' ') extra
      if routeparts.length = 5 then
        let s ← s.addRoute (← get routeparts 0) (← get routeparts 1) (← get routeparts 2) (some (← get routeparts 4))
        return (s, some "ok".toList)
      else if routeparts.length ≥ 3 then
        let s ← s.addRoute (← get routeparts 0) (← get routeparts 1) (← get routeparts 2) none
        return (s, some "ok".toList)
      else return (s, some "ok".toList)) := rfl

theorem handleNeed_route {extra a b c : Str} (hparts : Str.split (· = ' ') extra = [a, b, c]) :
    handleNeed android "ROUTE".toList extra s = (do return (← s.addRoute a b c none, some "ok".toList)) := by
  simp only [handleNeed_routeparts, hparts, List.length_cons, List.length_nil, get_zero, get_succ, lift_ok, bind_ok]
  simp

theorem handleNeed_routeDev {extra a b c d e : Str} (hparts : Str.split (· = ' ') extra = [a, b, c, d, e]) :
    handleNeed android "ROUTE".toList extra s = (do return (← s.addRoute a b c (some e), some "ok".toList)) := by
  simp only [handleNeed_routeparts, hparts, List.length_cons, List.length_nil, get_zero, get_succ, lift_ok, bind_ok]
  simp

theorem handleNeed_route6 {extra a b : Str} (hparts : Str.split (· = ' ') extra = [a, b]) :
    handleNeed android "ROUTE6".toList extra s = (do return (← s.addRoutev6Device android a b, some "ok".toList)) := by
  have hroute6 : handleNeed android "ROUTE6".toList extra s = (do
      let routeparts := Str.split (· = ' ') extra
      return (← s.addRoutev6Device android (← get routeparts 0) (← get routeparts 1), some "ok".toList)) := rfl
  simp only [hroute6, hparts, get_zero, get_succ, lift_ok, bind_ok]

theorem handleNeed_ifconfig {extra a b c d : Str} {mtu : Int} (hparts : Str.split (· = ' ') extra = [a, b, c, d])
    (hmtu : parseInt c = .ok mtu) :
    handleNeed android "IFCONFIG".toList extra s = (do return (← s.setLocalIP a b mtu d, some "ok".toList)) := by
  have hifconfig : handleNeed android "IFCONFIG".toList extra s = (do
      let ifconfigparts := Str.split (· = ' ') extra
      let mtu ← parseInt (← get ifconfigparts 2)
      return (← s.setLocalIP (← get ifconfigparts 0) (← get ifconfigparts 1) mtu (← get ifconfigparts 3),
        some "ok".toList)) := rfl
  simp only [hifconfig, hparts, hmtu, get_zero, get_succ, lift_ok, bind_ok]

theorem handleNeed_ifconfig6 {extra a b : Str} {mtu : Int} (hparts : Str.split (· = ' ') extra = [a, b])
    (hmtu : parseInt b = .ok mtu) :
    handleNeed android "IFCONFIG6".toList extra s = .ok ((s.setMtu mtu).setLocalIPv6 a, some "ok".toList) := by
  have hifconfig6 : handleNeed android "IFCONFIG6".toList extra s = (do
      let ifconfig6parts := Str.split (· = ' ') extra
      let mtu ← parseInt (← get ifconfig6parts 1)
      return ((s.setMtu mtu).setLocalIPv6 (← get ifconfig6parts 0), some "ok".toList)) := rfl
  simp only [hifconfig6, hparts, hmtu, get_zero, get_succ, lift_ok, bind_ok]
  rfl

theorem handleNeed_httpproxy (extra : Str) : handleNeed android "HTTPPROXY".toList extra s = (do
    let httpproxy := Str.split (· = ' ') extra
    if httpproxy.length = 2 then
      return (s.addHttpProxy android (← get httpproxy 0) (← parseInt (← get httpproxy 1)), some "ok".toList)
    else return (s, some "ok".toList)) := rfl

theorem split_httpproxy (host : Str) (port : Nat) :
    Str.split (· = ' ') (host ++ [' '] ++ decimal port) = Str.parts (· = ' ') host ++ [decimal port] := by
  have hport := isToken_decimal port
  rw [List.append_assoc, List.singleton_append, Str.split_append_sep (by decide) hport.1 hport.2]

theorem handleNeed_proxy (host : Str) (port : Fin (2 ^ 31)) (hhost : ∀ c ∈ host, c ≠ ' ') :
    handleNeed android "HTTPPROXY".toList (host ++ [' '] ++ decimal port) s =
      .ok (s.addHttpProxy android host (port : Nat), some "ok".toList) := by
  have hparts : Str.parts (· = ' ') host = [host] := Str.parts_of_forall fun c hc => decide_eq_false (hhost c hc)
  rw [handleNeed_httpproxy]
  simp only [split_httpproxy, hparts, List.singleton_append, List.length_cons, List.length_nil, get_zero, get_succ,
    parseInt_decimal, lift_ok, bind_ok]
  rfl

/-- A host with blanks makes more than two parts. -/
theorem handleNeed_proxyBlank (host : Str) (port : Nat) (hhost : ¬ ∀ c ∈ host, c ≠ ' ') :
    handleNeed android "HTTPPROXY".toList (host ++ [' '] ++ decimal port) s = .ok (s, some "ok".toList) := by
  have hcount : 0 < host.countP (· = ' ') := by
    rw [List.countP_pos_iff]
    simpa using hhost
  have hlength : ¬ (Str.split (· = ' ') (host ++ [' '] ++ decimal port)).length = 2 := by
    rw [split_httpproxy, List.length_append, Str.length_parts, List.length_singleton]
    omega
  rw [handleNeed_httpproxy]
  simp only [hlength, if_false]
  rfl

namespace Message

/-- The call of the service that a message leads to, and the status of the answer. -/
def perform (android : Android π) (m : Message) (s : OpenVPNService π) : Result (OpenVPNService π × Str) :=
  match m with
  | dns6server address => return (s.addDNS address.text, "ok")
  | dnsserver address => return (s.addDNS address.print_in_addr_t, "ok")
  | dnsdomain domain => return (s.addSearchDomain domain, "ok")
  | route network netmask gateway iface => do
      return (← s.addRoute network.print_in_addr_t netmask.print_in_addr_t gateway.print_in_addr_t
        (iface.map Token.text), "ok")
  | route6 network netbits device => do
      return (← s.addRoutev6Device android (network.text ++ "/" ++ decimal netbits) device.text, "ok")
  | ifconfig ip remote_netmask tun_mtu topology => do
      return (← s.setLocalIP ip.print_in_addr_t remote_netmask.print_in_addr_t (tun_mtu : Nat) topology.text, "ok")
  | ifconfig6 ip netbits tun_mtu =>
      return ((s.setMtu (tun_mtu : Nat)).setLocalIPv6 (ip.text ++ "/" ++ decimal netbits), "ok")
  | httpproxy http_proxy http_proxy_port =>
      if ∀ c ∈ http_proxy, c ≠ ' ' then return (s.addHttpProxy android http_proxy (http_proxy_port : Nat), "ok")
      else return (s, "ok")
  | persistTunAction => do return (s, ← s.getTunReopenStatus android)

theorem handleNeed_msg (m : Message) :
    handleNeed android m.command m.msg s = (do let r ← m.perform android s; return (r.1, some r.2)) := by
  cases m with
  | dns6server address => rfl
  | dnsserver address => rfl
  | dnsdomain domain => rfl
  | route network netmask gateway iface =>
    cases iface with
    | none =>
      have hparts : Str.split (· = ' ') (Message.route network netmask gateway none).msg = _ :=
        (congrArg (Str.split (· = ' ')) (List.append_nil _)).trans
          (split_route (isToken_print network) (isToken_print netmask) (isToken_print gateway))
      exact (handleNeed_route hparts).trans (by simp [perform])
    | some iface =>
      have hdev : IsToken "dev".toList := by refine ⟨by decide, by decide⟩
      have hblanks : " dev ".toList = [' '] ++ "dev".toList ++ [' '] := by decide
      have hparts : Str.split (· = ' ') (Message.route network netmask gateway (some iface)).msg = _ :=
        (congrArg (fun dev => Str.split (· = ' ') (network.print_in_addr_t ++ [' '] ++ netmask.print_in_addr_t ++
          [' '] ++ gateway.print_in_addr_t ++ (dev ++ iface.text))) hblanks).trans
            (split_routeDev (isToken_print network) (isToken_print netmask) (isToken_print gateway) hdev iface.isToken)
      exact (handleNeed_routeDev hparts).trans (by simp [perform])
  | route6 network netbits device =>
    exact (handleNeed_route6 (split_pair (isToken_net6 network netbits) device.isToken)).trans (by simp [perform])
  | ifconfig ip netmask mtu topology =>
    exact (handleNeed_ifconfig (split_ifconfig (isToken_print ip) (isToken_print netmask) (isToken_decimal mtu)
      topology.isToken) (parseInt_decimal mtu)).trans (by simp [perform])
  | ifconfig6 ip netbits mtu =>
    exact handleNeed_ifconfig6 (split_pair (isToken_net6 ip netbits) (isToken_decimal mtu)) (parseInt_decimal mtu)
  | httpproxy host port =>
    by_cases hhost : ∀ c ∈ host, c ≠ ' '
    · rw [perform, if_pos hhost]
      exact handleNeed_proxy host port hhost
    · rw [perform, if_neg hhost]
      exact handleNeed_proxyBlank host port hhost
  | persistTunAction =>
    have hpersist : handleNeed android "PERSIST_TUN_ACTION".toList (Message.msg persistTunAction) s =
      (do return (s, some (← s.getTunReopenStatus android))) := rfl
    exact hpersist.trans (by simp [perform])

/-- The command that answers a message. -/
def answer (m : Message) (status : Str) : Str := "needok '" ++ m.command ++ "' " ++ status ++ "\n"

theorem processNeedCommand_argument (m : Message) :
    processNeedCommand android m.argument s = (do let r ← m.perform android s; return (r.1, [m.answer r.2])) := by
  simp only [processNeedCommand, quoted_argument, extra_argument, lift_ok, bind_ok, handleNeed_msg, bind_assoc,
    pure_bind]
  rfl

end Message

end AllInSafe.Tun
