import AllInSafe.Routes.Lemmas.Sets
import AllInSafe.Tun.Messages

/-!
# Reconnects that push the same settings

OpenVPN sends the local IPv4 address before all else, and asks for the action when all settings are sent.
-/

namespace AllInSafe.Tun
open AllInSafe.Library AllInSafe.Config
open AllInSafe.Routes (IpAddress Contains)

variable {π : Type}

/-- Neither the local IPv4 address nor a question. -/
def Message.IsSetting : Message → Prop
  | .ifconfig .. | .persistTunAction => False
  | _ => True

instance : DecidablePred Message.IsSetting := fun m => by
  unfold Message.IsSetting
  cases m <;> infer_instance

/-- The arguments of `IFCONFIG`. -/
structure Ifconfig where
  ip : InAddr
  remote_netmask : InAddr
  tun_mtu : Fin (2 ^ 31)
  topology : Token

def Ifconfig.message (i : Ifconfig) : Message := .ifconfig i.ip i.remote_netmask i.tun_mtu i.topology

/-- What a server pushes. -/
structure Push where
  ifconfig : Option Ifconfig
  settings : List Message
  isSetting : ∀ m ∈ settings, m.IsSetting

namespace Push

def messages (p : Push) : List Message := p.ifconfig.toList.map Ifconfig.message ++ p.settings

def dnsText : Message → Option Str
  | .dns6server address => some address.text
  | .dnsserver address => some address.print_in_addr_t
  | _ => none

def domainText : Message → Option Str
  | .dnsdomain domain => some domain
  | _ => none

/-- The DNS servers of the push. -/
def dns (p : Push) : List Str := p.settings.filterMap dnsText

def domains (p : Push) : List Str := p.settings.filterMap domainText

end Push

/-- The settings are pushed and the question is asked: the state, and what is written to answer it. -/
def reconnect (android : Android π) (p : Push) (s : OpenVPNService π) : Result (OpenVPNService π × List Str) := do
  let (s, _) ← processNeedCommands android p.messages s
  processNeedCommand android Message.persistTunAction.argument s

/-- Several times, as long as the tunnel is kept: no `OPENTUN` comes between. -/
def reconnects (android : Android π) (p : Push) : Nat → OpenVPNService π → Result (OpenVPNService π × List (List Str))
  | 0, s => return (s, [])
  | n + 1, s => do
      let (s, written) ← reconnect android p s
      let (s, rest) ← reconnects android p n s
      return (s, written :: rest)

/-- What is written to keep the tunnel. -/
def keepTun : List Str := ["needok 'PERSIST_TUN_ACTION' NOACTION\n".toList]

/-- The networks that the device is in are no news to the configuration, or are not looked at. -/
def NothingLocal (android : Android π) (tc : TunConfig π) : Prop :=
  android.mAllowLocalLAN = some true → android.doUseOpenVPN3 = false → ∀ mLocalIP, tc.mLocalIP = some mLocalIP →
    (∀ text ∈ android.getLocalNetworks false, ∀ cidr net, OpenVPNService.localCIDR text = .ok cidr →
      netOf cidr false = .ok net → cidr.mIp = mLocalIP.mIp ∨ Contains tc.mRoutes.mIpAddresses net) ∧
    ∀ text ∈ android.getLocalNetworks true, ∀ net, OpenVPNService.net6Of android text false = .ok (some net) →
      Contains tc.mRoutesv6.mIpAddresses net

end AllInSafe.Tun
