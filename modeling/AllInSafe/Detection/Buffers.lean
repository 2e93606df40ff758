import AllInSafe.Detection.Model
import AllInSafe.Library.ByteBuffer

/-!
# Packets read through a buffer

`analyzePacket` and what it calls as they read the bytes, with every exception that a read can throw.
-/

namespace AllInSafe.Detection.Buffered
open AllInSafe.Library AllInSafe.Config ByteBuffer

inductive Throwable
  | buffer (e : BufferException)
  | indexOutOfBounds
  | unknownHost
  | nullPointer
  deriving DecidableEq, Repr

/-! ## DnsSpoofingDetector -/

def sourceIp (version : Nat) : Read Str :=
  if version = 4 then do
    setPosition 12
    let bytes ← (List.range 4).mapM fun _ => getByte
    return List.intercalate ['.'] (bytes.map decimal)
  else do
    setPosition 8
    let shorts ← (List.range 8).mapM fun _ => getShort
    return List.intercalate [':'] (shorts.map (Nat.toDigits 16))

/-- `-1` where the byte cannot be read. -/
def ttl (version : Nat) : Read Int :=
  tryCatch
    (do
      setPosition (if version = 4 then 8 else 7)
      return (← getByte))
    fun _ => return -1

/-- The TXID has no server, or another one. -/
def serverChecks (expectedServer : Option Str) (sourceIp : Str) : Nat :=
  match expectedServer with
  | none => 1
  | some expectedServer => if expectedServer ≠ sourceIp then 1 else 0

def processPacket (d : DnsSpoofingDetector) : Read (DnsSpoofingDetector × Option Severity) := do
  if (← get).remaining < 40 then return (d, none)
  let version := (← getAt 0) / 16
  let ipHeaderSize := if version = 4 then 20 else 40
  let dnsPayloadStart := ipHeaderSize + 8
  if (← get).remaining < dnsPayloadStart + 12 then return (d, none)
  let sourceIp ← sourceIp version
  setPosition dnsPayloadStart
  let txid ← getShort
  let flags ← getShort
  if flags &&& 0x8000 = 0 then
    return (if (d.pendingRequests txid).isNone then d.addRequest txid sourceIp else d, none)
  let ttl ← ttl version
  let failedChecks := serverChecks (d.pendingRequests txid) sourceIp + (if 1 ≤ ttl ∧ ttl < 10 then 1 else 0) +
    (if sourceIp ∉ trustedDnsServers then 1 else 0)
  let warnedTxids := if failedChecks ≥ 2 ∧ txid ∉ d.warnedTxids then txid :: d.warnedTxids else d.warnedTxids
  return ({ d with warnedTxids := warnedTxids }, DnsSpoofingDetector.logResult failedChecks)

/-! ## ArpData -/

def copyOfRange (packet : Packet) (fromIndex toIndex : Nat) : Except Throwable Packet :=
  if toIndex ≤ packet.length then .ok ((packet.take toIndex).drop fromIndex) else .error .indexOutOfBounds

/-- `InetAddress.getByAddress` and `hostAddress` of the bytes of an IPv4 address. -/
def hostAddress (addr : Packet) : Except Throwable Str :=
  if addr.length = 4 then .ok (List.intercalate ['.'] (addr.map fun b => decimal b.toNat)) else .error .unknownHost

def macText (bytes : Packet) : Str := List.intercalate [':'] (bytes.map fun b => Packet.hexByte b.toNat)

/-- The texts of the target are made and not looked at by any caller. -/
def fromPacket (packet : Packet) : Option ArpData :=
  let read : Except Throwable (Option ArpData) := do
    if packet.length < 42 then return none
    let senderIp ← hostAddress (← copyOfRange packet 28 32)
    let senderMac := macText (← copyOfRange packet 22 28)
    let _targetIp ← hostAddress (← copyOfRange packet 38 42)
    let _targetMac := macText (← copyOfRange packet 32 38)
    return some ⟨senderIp, senderMac⟩
  match read with
  | .ok arpData => arpData
  | .error _ => none

/-! ## SpoofingDetectionManager -/

def isArpPacket : Read Bool :=
  tryCatch
    (do
      rewind
      let etherType ← getShortAt 12
      return etherType = 0x0806)
    fun _ => return false

def isDnsPacket : Read Bool :=
  tryCatch
    (do
      rewind
      let version := (← getAt 0) / 16
      let protocol ← if version = 4 then getAt 9 else getAt 6
      let srcPort ← if version = 4 then getShortAt 20 else getShortAt 40
      let dstPort ← if version = 4 then getShortAt 22 else getShortAt 42
      return protocol = 17 && (srcPort = 53 || dstPort = 53))
    fun _ => return false

/-- `arpData!!` in the message of the alert. -/
def reportSpoofed (arpData : Option ArpData) : Except Throwable (List (Kind × Severity)) :=
  match arpData with
  | none => .error .nullPointer
  | some _ => .ok [(.arp, .CRITICAL)]

/-- The reports of the ARP detector and of its manager. -/
def arpReports (packetData : Packet) : Except Throwable (List (Kind × Severity)) :=
  let arpData := fromPacket packetData
  if arpData.any ArpData.isSpoofed then (reportSpoofed arpData).map fun reports => (.arp, .CRITICAL) :: reports
  else .ok []

def analyzePacket (packetData : Packet) (d : DnsSpoofingDetector) :
    Except Throwable (DnsSpoofingDetector × List (Kind × Severity)) :=
  match isArpPacket (wrap packetData) with
  | .error e _ => .error (.buffer e)
  | .ok isArp buffer => do
      let reports ← if isArp then arpReports packetData else .ok []
      match isDnsPacket buffer with
      | .error e _ => .error (.buffer e)
      | .ok false _ => .ok (d, reports)
      | .ok true buffer =>
          match processPacket d buffer with
          | .error e _ => .error (.buffer e)
          | .ok (d, severity) _ => .ok (d, reports ++ severity.toList.map fun s => (.dns, s))

end AllInSafe.Detection.Buffered
