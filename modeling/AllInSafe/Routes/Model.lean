import AllInSafe.Library.Blocks
import AllInSafe.Library.Runs

/-!
# The route set of a tunnel

`NetworkSpace` collects included and excluded nets; `generateIPList` resolves them into nets that do not overlap.
A run of its loop takes one event for each call of `networks.poll()`: the order of equal elements in a
`PriorityQueue` is not specified, so the event is any least element of the queue.
-/

namespace AllInSafe.Routes
open AllInSafe.Library AllInSafe.Library.Blocks

/-! ## Nets -/

/-- An IPv4 address, as the number that `getInt` reads, with its prefix length. -/
structure CIDRIP where
  getInt : Nat
  len : Nat
  deriving DecidableEq, Repr

structure Inet6Address where
  getAddress : List UInt8
  length_getAddress : getAddress.length = 16
  deriving DecidableEq, Repr

structure IpAddress where
  netAddress : Nat
  networkMask : Nat
  included : Bool
  isV4 : Bool
  deriving DecidableEq, Repr

namespace IpAddress

def ofCIDRIP (ip : CIDRIP) (included : Bool) : IpAddress :=
  ⟨ip.getInt, ip.len, included, true⟩

/-- The bytes of the address from the first one on, each eight bits below the one before. -/
def addBytes (netAddress s : Nat) : List UInt8 → Nat
  | [] => netAddress
  | b :: bs => addBytes (netAddress + b.toNat <<< (s - 8)) (s - 8) bs

def ofInet6Address (address : Inet6Address) (mask : Nat) (included : Bool) : IpAddress :=
  ⟨addBytes 0 128 address.getAddress, mask, included, false⟩

variable (ip another : IpAddress)

def addressBits : Nat :=
  if ip.isV4 then 32 else 128

/-- The bits below the prefix, none where the mask is longer than the address. -/
def numBits : Nat :=
  ip.addressBits - ip.networkMask

def getMaskedAddress (one : Bool) : Nat :=
  (List.range ip.numBits).foldl (fun numAddress i => if one then setBit numAddress i else clearBit numAddress i)
    ip.netAddress

def getFirstAddress : Nat :=
  ip.getMaskedAddress false

def getLastAddress : Nat :=
  ip.getMaskedAddress true

/-- The order of the queue and of the sets: by the first address, and smaller nets first. -/
def compareTo : Ordering :=
  match compare ip.getFirstAddress another.getFirstAddress with
  | .lt => .lt
  | .gt => .gt
  | .eq =>
      if ip.networkMask > another.networkMask then .lt
      else if another.networkMask = ip.networkMask then .eq
      else .gt

def equals : Bool :=
  ip.networkMask = another.networkMask && another.getFirstAddress = ip.getFirstAddress

def firstHalf : IpAddress :=
  ⟨ip.getFirstAddress, ip.networkMask + 1, ip.included, ip.isV4⟩

def secondHalf : IpAddress :=
  ⟨ip.firstHalf.getLastAddress + 1, ip.networkMask + 1, ip.included, ip.isV4⟩

end IpAddress

/-- A failed assertion of a debug build. -/
inductive IllegalStateException
  | assertTrue
  deriving DecidableEq, Repr

/-- The assertions are checked in a debug build only. -/
def assertTrue (debug f : Bool) : Except IllegalStateException Unit :=
  if debug && !f then throw .assertTrue else pure ()

def IpAddress.split (debug : Bool) (ip : IpAddress) : Except IllegalStateException (IpAddress × IpAddress) := do
  assertTrue debug (ip.secondHalf.getLastAddress = ip.getLastAddress)
  return (ip.firstHalf, ip.secondHalf)

/-! ## Sets and queues -/

/-- `add` of a `TreeSet`: an element that is there already stays. -/
def treeSetAdd (ip : IpAddress) : List IpAddress → List IpAddress
  | [] => [ip]
  | x :: xs =>
      match ip.compareTo x with
      | .lt => ip :: x :: xs
      | .eq => x :: xs
      | .gt => x :: treeSetAdd ip xs

structure NetworkSpace where
  mIpAddresses : List IpAddress := []

namespace NetworkSpace

def addIP (cidrIp : CIDRIP) (included : Bool) (space : NetworkSpace) : NetworkSpace :=
  ⟨treeSetAdd (.ofCIDRIP cidrIp included) space.mIpAddresses⟩

def addIPv6 (address : Inet6Address) (mask : Nat) (included : Bool) (space : NetworkSpace) : NetworkSpace :=
  ⟨treeSetAdd (.ofInet6Address address mask included) space.mIpAddresses⟩

end NetworkSpace

/-- A call that adds a net to a `NetworkSpace`. -/
inductive Call
  | addIP (cidrIp : CIDRIP) (included : Bool)
  | addIPv6 (address : Inet6Address) (mask : Nat) (included : Bool)

namespace Call

/-- The net that the call adds. -/
def net : Call → IpAddress
  | addIP cidrIp included => .ofCIDRIP cidrIp included
  | addIPv6 address mask included => .ofInet6Address address mask included

def apply (space : NetworkSpace) : Call → NetworkSpace
  | addIP cidrIp included => space.addIP cidrIp included
  | addIPv6 address mask included => space.addIPv6 address mask included

end Call

/-- A `NetworkSpace` after the calls. -/
def NetworkSpace.ofCalls (calls : List Call) : NetworkSpace :=
  calls.foldl (fun space c => c.apply space) {}

/-- What `networks.poll()` may return. -/
def Polls (networks : List IpAddress) : Option IpAddress → Bool
  | none => networks.isEmpty
  | some ip => networks.contains ip && networks.all fun n => ip.compareTo n != .gt

/-- The queue after the poll. -/
def rest (networks : List IpAddress) : Option IpAddress → List IpAddress
  | none => networks
  | some ip => networks.erase ip

/-- `networks.contains(ip)`, by the address and the mask. -/
def containsNet (networks : List IpAddress) (ip : IpAddress) : Bool :=
  networks.any fun n => ip.equals n

def addUnlessContained (networks : List IpAddress) (ip : IpAddress) : List IpAddress :=
  if containsNet networks ip then networks else networks ++ [ip]

/-! ## The loop -/

/-- `currentNet` is `none` before the first poll. -/
inductive Phase
  | start
  | loop (currentNet : IpAddress)
  | done
  deriving DecidableEq, Repr

def Phase.ofPoll : Option IpAddress → Phase
  | none => .done
  | some ip => .loop ip

structure Generation where
  phase : Phase := .start
  networks : List IpAddress
  ipsDone : List IpAddress := []
  deriving DecidableEq, Repr

/-- The current net and the next one overlap. -/
def overlaps (currentNet nextNet : IpAddress) : Bool :=
  !(currentNet.getLastAddress < nextNet.getFirstAddress)

/-- The current net has the base address of the next one and is not larger. -/
def sameBase (currentNet nextNet : IpAddress) : Bool :=
  currentNet.getFirstAddress = nextNet.getFirstAddress && currentNet.networkMask ≥ nextNet.networkMask

/-- The next net is larger and has the other type. -/
def splitNext (debug : Bool) (currentNet nextNet : IpAddress) (networks : List IpAddress) :
    Except IllegalStateException (List IpAddress) := do
  let (first, second) ← nextNet.split debug
  let networks := addUnlessContained networks second
  if first.getLastAddress = currentNet.getLastAddress then
    assertTrue debug (first.networkMask = currentNet.networkMask)
    return networks
  else
    return addUnlessContained networks first

/-- The current net is larger and has the other type. -/
def splitCurrent (debug : Bool) (currentNet nextNet : IpAddress) (networks : List IpAddress) :
    Except IllegalStateException (IpAddress × List IpAddress) := do
  let (first, second) ← currentNet.split debug
  if second.networkMask = nextNet.networkMask then
    assertTrue debug (second.getFirstAddress = nextNet.getFirstAddress)
    assertTrue debug (second.getLastAddress = currentNet.getLastAddress)
    return (first, networks ++ [nextNet])
  else
    return (first, networks ++ [second] ++ [nextNet])

/-- The body of the loop, once `nextNet` has been polled and has left `networks`. -/
def body (debug : Bool) (currentNet : IpAddress) (nextNet : Option IpAddress) (networks ipsDone : List IpAddress) :
    Except IllegalStateException Generation :=
  match nextNet with
  | none => return ⟨.done, networks, treeSetAdd currentNet ipsDone⟩
  | some nextNet =>
      if !overlaps currentNet nextNet then
        return ⟨.loop nextNet, networks, treeSetAdd currentNet ipsDone⟩
      else if sameBase currentNet nextNet then
        if currentNet.included = nextNet.included then
          return ⟨.loop nextNet, networks, ipsDone⟩
        else do
          let networks ← splitNext debug currentNet nextNet networks
          return ⟨.loop currentNet, networks, ipsDone⟩
      else do
        assertTrue debug (currentNet.networkMask < nextNet.networkMask)
        assertTrue debug (nextNet.getFirstAddress > currentNet.getFirstAddress)
        assertTrue debug (currentNet.getLastAddress ≥ nextNet.getLastAddress)
        if currentNet.included = nextNet.included then
          return ⟨.loop currentNet, networks, ipsDone⟩
        else
          let (currentNet, networks) ← splitCurrent debug currentNet nextNet networks
          return ⟨.loop currentNet, networks, ipsDone⟩

/-- One poll and what follows it up to the next one. -/
def Generation.step (debug : Bool) (s : Generation) (nextNet : Option IpAddress) : Option Generation :=
  if Polls s.networks nextNet then
    match s.phase with
    | .start => some { s with phase := .ofPoll nextNet, networks := rest s.networks nextNet }
    | .loop currentNet => (body debug currentNet nextNet (rest s.networks nextNet) s.ipsDone).toOption
    | .done => none
  else none

def generateIPList (debug : Bool) (space : NetworkSpace) : Machine Generation (Option IpAddress) :=
  ⟨{ networks := space.mIpAddresses }, Generation.step debug⟩

def getPositiveIPList (ipsSorted : List IpAddress) : List IpAddress :=
  ipsSorted.filter fun ia => ia.included

end AllInSafe.Routes
