import AllInSafe.Library.BigEndian
import AllInSafe.Library.Runs

/-!
# The addresses of a server's clients

`pool.c`, and what `multi.c` does with a pool when clients come and go. A handle is `none` where the source has `-1`.
-/

namespace AllInSafe.Pool
open AllInSafe.Library

structure PoolEntry where
  in_use : Bool := false
  common_name : Option (List Char) := none
  last_release : Int := 0
  fixed : Bool := false
  deriving DecidableEq

inductive PoolType
  | net30
  | indiv
  deriving DecidableEq

def IFCONFIG_POOL_MAX : Nat := 65536

/-- `ipv4` and `ipv6` are `none` where they are not enabled, and the length of `list` is `size`. -/
structure IfconfigPool where
  duplicate_cn : Bool
  ipv4 : Option (PoolType × UInt32)
  ipv6 : Option (List UInt8)
  list : List PoolEntry
  deriving DecidableEq

/-- Frees an entry. After a hard release it no longer knows whose it was. -/
def ifconfig_pool_entry_free (now : Int) (hard : Bool) (ipe : PoolEntry) : PoolEntry :=
  if hard then { ipe with in_use := false, common_name := none, last_release := 0 }
  else { ipe with in_use := false, last_release := now }

/-! ## The search -/

/-- The variables of the loop of `ifconfig_pool_find`. -/
structure Search where
  earliest_release : Int := 0
  previous_usage : Option Nat := none
  new_usage : Option Nat := none
  deriving DecidableEq

/-- What the loop does with a free entry that does not end it. -/
def Search.next (common_name : Option (List Char)) (i : Nat) (ipe : PoolEntry) (found : Search) : Search :=
  let older := (found.new_usage = none ∨ ipe.last_release < found.earliest_release) ∧ !ipe.fixed
  let mine := found.previous_usage = none ∧ common_name.isSome ∧ ipe.common_name = common_name
  { earliest_release := if older then ipe.last_release else found.earliest_release
    new_usage := if older then some i else found.new_usage
    previous_usage := if mine then some i else found.previous_usage }

/-- The loop of `ifconfig_pool_find` from the `i`th entry on. -/
def searchFrom (duplicate_cn : Bool) (common_name : Option (List Char)) : Nat → List PoolEntry → Search → Search
  | _, [], found => found
  | i, ipe :: rest, found =>
      if ipe.in_use then searchFrom duplicate_cn common_name (i + 1) rest found
      else if duplicate_cn then { found with new_usage := some i }
      else searchFrom duplicate_cn common_name (i + 1) rest (found.next common_name i ipe)

def ifconfig_pool_find (pool : IfconfigPool) (common_name : Option (List Char)) : Option Nat :=
  let found := searchFrom pool.duplicate_cn common_name 0 pool.list {}
  found.previous_usage.or found.new_usage

/-! ## Addresses -/

/-- The loop of `add_in6_addr`, which starts at the last byte. -/
def addToBytes : List UInt8 → Nat → List UInt8
  | [], _ => []
  | h :: rest, add =>
      if add = 0 then h :: rest
      else UInt8.ofNat (h.toNat + add) :: addToBytes rest (add / 256 + (h.toNat + add % 256) / 256)

def add_in6_addr (base : List UInt8) (add : Nat) : List UInt8 := (addToBytes base.reverse add).reverse

/-- What `ifconfig_pool_acquire` gives to its caller besides the handle. The caller starts from zeros. -/
structure Addresses where
  vlocal : UInt32 := 0
  remote : UInt32 := 0
  remote_ipv6 : List UInt8 := List.replicate 16 0
  deriving DecidableEq

def IfconfigPool.addresses (pool : IfconfigPool) (i : Nat) : Addresses :=
  let ipv6 := (pool.ipv6.map fun base => add_in6_addr base i).getD (List.replicate 16 0)
  match pool.ipv4 with
  | some (.net30, base) =>
      let b := base + UInt32.ofNat (i <<< 2)
      { vlocal := b + 1, remote := b + 2, remote_ipv6 := ipv6 }
  | some (.indiv, base) => { remote := base + UInt32.ofNat i, remote_ipv6 := ipv6 }
  | none => { remote_ipv6 := ipv6 }

/-! ## The operations -/

/-- The size of the IPv4 pool with its first address. -/
def ipv4Range (type : PoolType) (start stop : UInt32) : UInt32 × UInt32 :=
  match type with
  | .net30 =>
      let base := start &&& ~~~3
      (base, ((stop ||| 3) + 1 - base) >>> 2)
  | .indiv => (start, stop - start + 1)

/-- The first address of the IPv6 pool with its size. The network's own address is not given to a client. -/
def ipv6Range (ipv6_base : List UInt8) (ipv6_netbits : Nat) : List UInt8 × Nat :=
  let host := BigEndian.value (ipv6_base.drop 12)
  let base := if 128 - ipv6_netbits < 32 then host % 2 ^ (128 - ipv6_netbits) else host
  let first := if base = 0 then 1 else base
  (if base = 0 then ipv6_base.modify 15 (· + 1) else ipv6_base,
    if ipv6_netbits ≥ 112 then 2 ^ (128 - ipv6_netbits) - first else IFCONFIG_POOL_MAX)

/-- The size of the smaller pool, where both are enabled. -/
def unifiedSize (ipv4_pool ipv6_pool : Bool) (size4 size6 : Nat) : Nat :=
  if ipv4_pool then if ipv6_pool ∧ size6 < size4 then size6 else size4 else if ipv6_pool then size6 else 0

/-- `none` is a failed assertion or a fatal message. -/
def ifconfig_pool_init (ipv4_pool : Bool) (type : PoolType) (start stop : UInt32) (duplicate_cn ipv6_pool : Bool)
    (ipv6_base : List UInt8) (ipv6_netbits : Nat) : Option IfconfigPool :=
  let range4 := ipv4Range type start stop
  let range6 := ipv6Range ipv6_base ipv6_netbits
  let size := unifiedSize ipv4_pool ipv6_pool range4.2.toNat range6.2
  if start ≤ stop ∧ (stop - start).toNat < IFCONFIG_POOL_MAX then
    if (ipv4_pool ∧ range4.2 < 2) ∨ (ipv6_pool ∧ range6.2 < 2) ∨ size = 0 then none
    else
      some
        { duplicate_cn := duplicate_cn
          ipv4 := if ipv4_pool then some (type, range4.1) else none
          ipv6 := if ipv6_pool then some range6.1 else none
          list := List.replicate size {} }
  else none

/-- The handle, where there is one, with its addresses; `none` where the assertion fails. -/
def ifconfig_pool_acquire (now : Int) (common_name : Option (List Char)) (pool : IfconfigPool) :
    Option (Option (Nat × Addresses) × IfconfigPool) :=
  match ifconfig_pool_find pool common_name with
  | some i =>
      match pool.list[i]? with
      | some ipe =>
          if ipe.in_use then none
          else
            let ipe := { ifconfig_pool_entry_free now true ipe with in_use := true, common_name := common_name }
            some (some (i, pool.addresses i), { pool with list := pool.list.set i ipe })
      | none => none
  | none => some (none, pool)

def ifconfig_pool_release (now : Int) (hand : Option Nat) (hard : Bool) (pool : IfconfigPool) : IfconfigPool :=
  match hand with
  | some i => { pool with list := pool.list.modify i (ifconfig_pool_entry_free now hard) }
  | none => pool

/-- What a line of the file of `--ifconfig-pool-persist` does. -/
def ifconfig_pool_set (now : Int) (cn : List Char) (h : Nat) (fixed : Bool) (pool : IfconfigPool) : IfconfigPool :=
  { pool with
    list := pool.list.modify h fun e =>
      { ifconfig_pool_entry_free now true e with common_name := some cn, last_release := now, fixed := fixed } }

/-! ## The server -/

structure Client where
  vaddr_handle : Option Nat := none
  /-- What the pool has given with the handle. An IPv4 address of the client's own configuration replaces it. -/
  addresses : Option Addresses := none
  /-- The IPv6 address that is pushed to the client, where it is one of the pool. -/
  push_ifconfig_ipv6_local : Option (List UInt8) := none
  deriving DecidableEq

/-- `push_ifconfig_defined` and `push_ifconfig_ipv6_defined` say that the client's addresses are set by its own
configuration, and `cn` is `none` where the client has no name or names may be used twice. The IPv6 address of the pool
stays with a client that gives its entry back. -/
def multi_select_virtual_addr (now : Int) (cn : Option (List Char)) (push_ifconfig_defined : Bool)
    (push_ifconfig_ipv6_defined : Bool) (pool : IfconfigPool) (mi : Client) : Option (Client × IfconfigPool) :=
  let selected :=
    if push_ifconfig_defined then
      some ({ mi with vaddr_handle := none, addresses := none }, ifconfig_pool_release now mi.vaddr_handle true pool)
    else if mi.vaddr_handle = none then
      (ifconfig_pool_acquire now cn pool).map fun (taken, pool) =>
        let given := if pool.ipv6.isSome then taken.map fun (_, a) => a.remote_ipv6 else none
        ({ vaddr_handle := taken.map Prod.fst
           addresses := taken.map Prod.snd
           push_ifconfig_ipv6_local := given.or mi.push_ifconfig_ipv6_local }, pool)
    else some (mi, pool)
  if push_ifconfig_ipv6_defined then
    selected.map fun (mi, pool) => ({ mi with push_ifconfig_ipv6_local := none }, pool)
  else selected

structure Server (ι : Type) where
  now : Int
  pool : IfconfigPool
  clients : ι → Option Client

/-- An address is selected when a client connects, and again after its own configuration has been read. -/
inductive Event (ι : Type)
  | time (now : Int)
  | connect (c : ι) (cn : Option (List Char)) (push_ifconfig_defined push_ifconfig_ipv6_defined : Bool)
  | select (c : ι) (cn : Option (List Char)) (push_ifconfig_defined push_ifconfig_ipv6_defined : Bool)
  | close (c : ι)

variable {ι : Type} [DecidableEq ι]

/-- The client `mi`, new or known, selects its address. -/
def Server.selects (s : Server ι) (c : ι) (cn : Option (List Char)) (push_ifconfig_defined : Bool)
    (push_ifconfig_ipv6_defined : Bool) (mi : Client) : Option (Server ι) :=
  (multi_select_virtual_addr s.now cn push_ifconfig_defined push_ifconfig_ipv6_defined s.pool mi).map fun (mi, pool) =>
    { s with pool := pool, clients := Function.update s.clients c (some mi) }

/-- The server on a pool, after the lines of the file have been read at the time `now`. -/
def server (now : Int) (pool : IfconfigPool) (lines : List (List Char × Nat × Bool)) :
    Machine (Server ι) (Event ι) where
  init :=
    { now := now
      pool := lines.foldl (fun pool line => ifconfig_pool_set now line.1 line.2.1 line.2.2 pool) pool
      clients := fun _ => none }
  step s e :=
    match e with
    | .time now => some { s with now := now }
    | .connect c cn push push_ipv6 => if s.clients c = none then s.selects c cn push push_ipv6 {} else none
    | .select c cn push push_ipv6 => (s.clients c).bind (s.selects c cn push push_ipv6)
    | .close c => (s.clients c).map fun mi =>
        { s with
          pool := ifconfig_pool_release s.now mi.vaddr_handle false s.pool
          clients := Function.update s.clients c none }

/-- The handle of a client, `none` for one that is not connected. -/
def Server.handle (s : Server ι) (c : ι) : Option Nat := (s.clients c).bind Client.vaddr_handle

/-- The event in which a client asks for an address of the pool. -/
def Server.request (s : Server ι) (c : ι) (cn : Option (List Char)) (push_ifconfig_ipv6_defined : Bool) : Event ι :=
  if (s.clients c).isSome then .select c cn false push_ifconfig_ipv6_defined
  else .connect c cn false push_ifconfig_ipv6_defined

end AllInSafe.Pool
