import AllInSafe.Tun.Model

/-!
# The messages by which OpenVPN pushes its settings

`management_android_control` with the texts that `do_ifconfig`, `add_route` and `open_tun` print, each short enough for
its buffer.
-/

namespace AllInSafe.Tun
open AllInSafe.Library AllInSafe.Config
open AllInSafe.Routes (Inet6Address)

/-! ## Addresses in texts -/

structure InAddr where
  a : UInt8
  b : UInt8
  c : UInt8
  d : UInt8
  deriving DecidableEq, Repr

namespace InAddr

variable (ip : InAddr)

def value : Nat := ip.a.toNat * 2 ^ 24 + ip.b.toNat * 2 ^ 16 + ip.c.toNat * 2 ^ 8 + ip.d.toNat

def print_in_addr_t : Str :=
  decimal ip.a.toNat ++ "." ++ decimal ip.b.toNat ++ "." ++ decimal ip.c.toNat ++ "." ++ decimal ip.d.toNat

/-- The address as two groups of an IPv6 address. -/
def groups : List UInt16 := [ip.a.toUInt16 <<< 8 ||| ip.b.toUInt16, ip.c.toUInt16 <<< 8 ||| ip.d.toUInt16]

end InAddr

/-- An IPv6 address in its text form: eight groups, of which one run of zeros may be written `::` and the last two in
dotted form. -/
structure Literal where
  front : List UInt16
  /-- The groups behind `::`, where there is one. -/
  back : Option (List UInt16)
  dotted : Option InAddr
  size : match back with
    | none => front.length + 2 * dotted.toList.length = 8
    | some back => front.length + back.length + 2 * dotted.toList.length ≤ 7
  deriving DecidableEq, Repr

namespace Literal

variable (l : Literal)

def colons (texts : List Str) : Str := List.intercalate ":".toList texts

def groupTexts (groups : List UInt16) : List Str := groups.map fun g => hex g.toNat

def text : Str :=
  let dotted := l.dotted.toList.map InAddr.print_in_addr_t
  match l.back with
  | none => colons (groupTexts l.front ++ dotted)
  | some back => colons (groupTexts l.front) ++ "::" ++ colons (groupTexts back ++ dotted)

/-- The groups behind the run of zeros. -/
def tail : List UInt16 := l.back.getD [] ++ l.dotted.toList.flatMap InAddr.groups

def groups : List UInt16 := l.front ++ List.replicate (8 - l.front.length - l.tail.length) 0 ++ l.tail

theorem length_tail : l.tail.length = (l.back.getD []).length + 2 * l.dotted.toList.length := by
  cases h : l.dotted <;> simp [tail, h, InAddr.groups]

theorem length_groups : l.groups.length = 8 := by
  have hsize := l.size
  have htail := l.length_tail
  simp only [groups, List.length_append, List.length_replicate]
  cases hback : l.back with
  | none =>
      simp only [hback, Option.getD_none, List.length_nil] at hsize htail
      omega
  | some back =>
      simp only [hback, Option.getD_some] at hsize htail
      omega

def address : Inet6Address where
  getAddress := l.groups.flatMap fun g : UInt16 => [(g >>> 8).toUInt8, g.toUInt8]
  length_getAddress := by
    have hlength := l.length_groups
    simp [List.length_flatMap, hlength]

end Literal

/-- An IPv4 address written as an IPv6 address, `::ffff:a.b.c.d`. -/
def IsIPv4Mapped (address : Inet6Address) : Prop :=
  address.getAddress.take 12 = List.replicate 10 0 ++ [0xff, 0xff]

instance {address : Inet6Address} : Decidable (IsIPv4Mapped address) := inferInstanceAs (Decidable (_ = _))

/-- The object that `java.net.InetAddress` makes of an address. -/
def InetAddress.ofAddress (address : Inet6Address) : InetAddress :=
  if IsIPv4Mapped address then .inet4 (address.getAddress.drop 12) else .inet6 address

/-! ## Messages -/

/-- A name that is not split at a blank. -/
structure Token where
  text : Str
  ne_nil : text ≠ []
  blank : ∀ c ∈ text, c ≠ ' '
  deriving DecidableEq, Repr

/-- `2001:db8::` -/
def plainNetwork : Literal := ⟨[0x2001, 0xdb8], some [], none, by decide⟩

def subnet : Token := ⟨"subnet", by decide, by decide⟩

instance neZero_netbits : NeZero 129 := ⟨by decide⟩

instance neZero_tun_mtu : NeZero (2 ^ 31) := ⟨by decide⟩

inductive Message
  | dns6server (address : Literal)
  | dnsserver (address : InAddr)
  | dnsdomain (domain : Str)
  /-- `iface` is there when a gateway of the system is known. -/
  | route (network netmask gateway : InAddr) (iface : Option Token)
  | route6 (network : Literal) (netbits : Fin 129) (device : Token)
  | ifconfig (ip remote_netmask : InAddr) (tun_mtu : Fin (2 ^ 31)) (topology : Token)
  | ifconfig6 (ip : Literal) (netbits : Fin 129) (tun_mtu : Fin (2 ^ 31))
  | httpproxy (http_proxy : Str) (http_proxy_port : Fin (2 ^ 31))
  | persistTunAction
  deriving DecidableEq, Repr

namespace Message

def command : Message → Str
  | dns6server _ => "DNS6SERVER"
  | dnsserver _ => "DNSSERVER"
  | dnsdomain _ => "DNSDOMAIN"
  | route .. => "ROUTE"
  | route6 .. => "ROUTE6"
  | ifconfig .. => "IFCONFIG"
  | ifconfig6 .. => "IFCONFIG6"
  | httpproxy .. => "HTTPPROXY"
  | persistTunAction => "PERSIST_TUN_ACTION"

def msg : Message → Str
  | dns6server address => address.text
  | dnsserver address => address.print_in_addr_t
  | dnsdomain domain => domain
  | route network netmask gateway iface =>
      network.print_in_addr_t ++ " " ++ netmask.print_in_addr_t ++ " " ++ gateway.print_in_addr_t ++
        iface.elim [] fun iface => " dev ".toList ++ iface.text
  | route6 network netbits device => network.text ++ "/" ++ decimal netbits ++ " " ++ device.text
  | ifconfig ip remote_netmask tun_mtu topology =>
      ip.print_in_addr_t ++ " " ++ remote_netmask.print_in_addr_t ++ " " ++ decimal tun_mtu ++ " " ++ topology.text
  | ifconfig6 ip netbits tun_mtu => ip.text ++ "/" ++ decimal netbits ++ " " ++ decimal tun_mtu
  | httpproxy http_proxy http_proxy_port => http_proxy ++ " " ++ decimal http_proxy_port
  | persistTunAction => "tunmethod"

/-- The argument of the line `>NEED-OK:` that the message is. -/
def argument (m : Message) : Str := "Need '" ++ m.command ++ "' confirmation MSG:" ++ m.msg

end Message

/-- The commands that are written for the messages of a list, one after the other. -/
def processNeedCommands {π : Type} (android : Android π) :
    List Message → OpenVPNService π → Result (OpenVPNService π × List (List Str))
  | [], s => return (s, [])
  | m :: ms, s => do
      let (s, written) ← processNeedCommand android m.argument s
      let (s, rest) ← processNeedCommands android ms s
      return (s, written :: rest)

end AllInSafe.Tun
