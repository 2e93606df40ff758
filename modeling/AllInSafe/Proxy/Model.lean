import AllInSafe.Config.Profile
import AllInSafe.Config.Importer

/-!
# The proxy of a connection

`processProxyCMD` and `sendProxyCMD` of `OpenVpnManagementThread`, and the query of OpenVPN that they answer.
-/

namespace AllInSafe.Proxy
open AllInSafe.Library AllInSafe.Config

/-! ## OpenVpnManagementThread -/

/-- `split(sep, limit + 1)`: the last part is not split any more. -/
def splitLimit (sep : Char) : (limit : Nat) → Str → List Str
  | 0, s => [s]
  | limit + 1, s =>
      if sep ∈ s then s.takeWhile (· ≠ sep) :: splitLimit sep limit (s.dropWhile (· ≠ sep)).tail else [s]

/-- The local variables that describe a proxy. -/
structure ProxySettings where
  proxyType : ProxyType := .NONE
  proxyname : Option Str := none
  proxyport : Option Str := none
  proxyUseAuth : Bool := false
  deriving DecidableEq, Repr

def ProxySettings.ofConnection (connection : Connection) : ProxySettings :=
  ⟨connection.mProxyType, some connection.mProxyName, some connection.mProxyPort, connection.mUseProxyAuth⟩

/-- What the thread does about a query; with Orbot the answer waits for a callback. -/
inductive Reply
  | managmentCommand (cmd : Str)
  | waitOrbot
  deriving DecidableEq, Repr

def sendProxyCMD (p : ProxySettings) : Str :=
  match p.proxyname with
  | some proxyname =>
      if p.proxyType ≠ .NONE then
        "proxy " ++ (if p.proxyType = .HTTP then "HTTP" else "SOCKS") ++ " " ++ proxyname ++ " " ++
          Connection.formatted p.proxyport ++ (if p.proxyUseAuth then " auto" else "") ++ "\n"
      else "proxy NONE\n"
  | none => "proxy NONE\n"

/-- What follows the look up of the connection; `detected` is the host and the port of the system's proxy. -/
def replyTo (profile : Bool) (detected : Option (Str × Int)) (args : List Str) (p : ProxySettings) : Reply :=
  let p := match detected with
    | some (host, port) =>
        if p.proxyType = .NONE && profile then
          { p with
            proxyType := .HTTP
            proxyname := some host
            proxyport := some (toString port).toList
            proxyUseAuth := false }
        else p
    | none => p
  let p := if args[1]? = some "UDP".toList && p.proxyType = .HTTP then { p with proxyname := none } else p
  if p.proxyType = .ORBOT then .waitOrbot else .managmentCommand (sendProxyCMD p)

/-- The connection that is remembered for the credentials, as its place in the array (`none` where it stays what it
was), and the reply. -/
def processProxyCMD (mProfile : Option VpnProfile) (detected : Option (Str × Int)) (argument : Str) :
    Except Throwable (Option Nat × Reply) := do
  let args := splitLimit ',' 2 argument
  let connectionEntryNumber := wrap 32 ((← parseInt (← get args 0)) - 1)
  match mProfile with
  | none => return (none, replyTo false detected args {})
  | some profile =>
      if (profile.mConnections.length : Int) > connectionEntryNumber then
        if connectionEntryNumber < 0 then throw .arrayIndexOutOfBounds
        else
          match profile.mConnections[connectionEntryNumber.toNat]? with
          | none => throw .arrayIndexOutOfBounds
          | some connection =>
              return (some connectionEntryNumber.toNat, replyTo true detected args (.ofConnection connection))
      else return (none, replyTo true detected args {})

/-! ## OpenVPN -/

/-- The argument of the query `>PROXY:` for the entry at a place of the connection list. -/
def query (current : Nat) (udp : Bool) (remote : Str) : Str :=
  decimal (current + 1) ++ "," ++ (if udp then "UDP" else "TCP") ++ "," ++ remote

/-- The connection list that OpenVPN holds for the written connections: under `remote-random` in any order. -/
def ConnectionList (np : VpnProfile) (l : List (Nat × Connection)) : Prop :=
  if np.mRemoteRandom && np.mConnections.length ≠ 1 then l.Perm np.writtenConnections else l = np.writtenConnections

instance (np : VpnProfile) (l : List (Nat × Connection)) : Decidable (ConnectionList np l) :=
  inferInstanceAs (Decidable (ite _ _ _))

/-- Every query for an entry of the list is answered with the proxy of the connection that produced the entry, and
remembers this connection. -/
def AnswersForEntries (np : VpnProfile) (l : List (Nat × Connection)) : Prop :=
  ∀ (current : Nat) (entry : Nat × Connection), l[current]? = some entry →
    ∀ (detected : Option (Str × Int)) (udp : Bool) (remote : Str),
      processProxyCMD (some np) detected (query current udp remote) =
        .ok (some entry.1, replyTo true detected (splitLimit ',' 2 (query current udp remote)) (.ofConnection entry.2))

/-- A single connection, or no disabled one in front of an enabled one. -/
def DisabledLast (conns : List Connection) : Prop :=
  conns.length = 1 ∨ conns.Pairwise fun a b => b.mEnabled = true → a.mEnabled = true

instance (conns : List Connection) : Decidable (DisabledLast conns) := inferInstanceAs (Decidable (_ ∨ _))

end AllInSafe.Proxy
