import AllInSafe.Config.Importer

/-!
# Spoofing detection

`DnsSpoofingDetector`, `ArpSpoofingDetector`, `SpoofingDetectionManager` and `SpoofingDetectingStatusManager`.
-/

namespace AllInSafe.Detection
open AllInSafe.Library AllInSafe.Config

/-! ## Packets -/

abbrev Packet := List UInt8

namespace Packet

/-- The byte at an index that is there: the callers compare the length first. -/
def byte (packet : Packet) (i : Nat) : Nat := (packet.getD i 0).toNat

def short (packet : Packet) (i : Nat) : Nat := packet.byte i * 256 + packet.byte (i + 1)

/-- Four bytes as the text of an address. -/
def dotted (packet : Packet) (i : Nat) : Str :=
  List.intercalate ['.'] ((List.range 4).map fun k => decimal (packet.byte (i + k)))

/-- The format `%02x`. -/
def hexByte (n : Nat) : Str := [Nat.digitChar (n / 16), Nat.digitChar (n % 16)]

/-! ### What the DNS detector reads -/

def version (packet : Packet) : Nat := packet.byte 0 / 16

def ipHeaderSize (packet : Packet) : Nat := if packet.version = 4 then 20 else 40

def dnsPayloadStart (packet : Packet) : Nat := packet.ipHeaderSize + 8

def sourceIp (packet : Packet) : Str :=
  if packet.version = 4 then packet.dotted 12
  else List.intercalate [':'] ((List.range 8).map fun k => Nat.toDigits 16 (packet.short (8 + 2 * k)))

def txid (packet : Packet) : Nat := packet.short packet.dnsPayloadStart

def flags (packet : Packet) : Nat := packet.short (packet.dnsPayloadStart + 2)

def ttl (packet : Packet) : Nat := if packet.version = 4 then packet.byte 8 else packet.byte 7

/-- The packet is long enough to be looked at. -/
def hasDnsHeader (packet : Packet) : Bool := 40 ≤ packet.length && packet.dnsPayloadStart + 12 ≤ packet.length

def responseFlag (packet : Packet) : Bool := packet.flags &&& 0x8000 ≠ 0

def isQuery (packet : Packet) : Bool := packet.hasDnsHeader && !packet.responseFlag

def isResponse (packet : Packet) : Bool := packet.hasDnsHeader && packet.responseFlag

end Packet

/-! ## DnsSpoofingDetector -/

/-- The severities of a result, from the empty text on. -/
inductive Severity
  | none
  | OK
  | WARNING
  | CRITICAL
  deriving DecidableEq, Repr

def Severity.rank : Severity → Nat
  | .none => 0
  | .OK => 1
  | .WARNING => 2
  | .CRITICAL => 3

def trustedDnsServers : List Str :=
  ["8.8.8.8".toList, "8.8.4.4".toList, "1.1.1.1".toList, "9.9.9.9".toList, "2001:4860:4860::8888".toList,
    "2001:4860:4860::8844".toList, "2606:4700:4700::1111".toList, "2606:4700:4700::1001".toList]

structure DnsSpoofingDetector where
  pendingRequests : Nat → Option Str := fun _ => Option.none
  warnedTxids : List Nat := []

namespace DnsSpoofingDetector

def addRequest (txid : Nat) (sourceIp : Str) (d : DnsSpoofingDetector) : DnsSpoofingDetector :=
  { d with pendingRequests := fun t => if t = txid then some sourceIp else d.pendingRequests t }

/-- The checks that a response fails. A TXID that is not registered fails the first one as another server does. -/
def failedChecks (packet : Packet) (d : DnsSpoofingDetector) : Nat :=
  (if d.pendingRequests packet.txid ≠ some packet.sourceIp then 1 else 0) +
  (if 1 ≤ packet.ttl ∧ packet.ttl < 10 then 1 else 0) +
  (if packet.sourceIp ∉ trustedDnsServers then 1 else 0)

def logResult (failedChecks : Nat) : Option Severity :=
  match failedChecks with
  | 0 | 1 => some .OK
  | 2 => some .WARNING
  | 3 => some .CRITICAL
  | _ => Option.none

/-- The detector after the packet, and the severity that it reports. -/
def processPacket (packet : Packet) (d : DnsSpoofingDetector) : DnsSpoofingDetector × Option Severity :=
  if packet.length < 40 then (d, Option.none)
  else if packet.length < packet.dnsPayloadStart + 12 then (d, Option.none)
  else if !packet.responseFlag then
    if (d.pendingRequests packet.txid).isNone then (d.addRequest packet.txid packet.sourceIp, Option.none)
    else (d, Option.none)
  else
    let failedChecks := d.failedChecks packet
    let warnedTxids :=
      if failedChecks ≥ 2 ∧ packet.txid ∉ d.warnedTxids then packet.txid :: d.warnedTxids else d.warnedTxids
    ({ d with warnedTxids := warnedTxids }, logResult failedChecks)

end DnsSpoofingDetector

/-! ## ArpSpoofingDetector -/

def knownMacTable : List (Str × Str) :=
  [("192.168.78.1".toList, "00-50-56-f5-b8-cc".toList), ("192.168.152.254".toList, "00-50-56-f2-ab-73".toList)]

/-- The sender of an ARP packet, its IP and its MAC. -/
structure ArpData where
  senderIp : Str
  senderMac : Str
  deriving DecidableEq, Repr

def ArpData.fromPacket (packet : Packet) : Option ArpData :=
  if packet.length < 42 then Option.none
  else some ⟨packet.dotted 28,
    List.intercalate [':'] ((List.range 6).map fun k => Packet.hexByte (packet.byte (22 + k)))⟩

/-- Whether the packet is reported as spoofed. -/
def ArpData.isSpoofed (arpData : ArpData) : Bool :=
  match knownMacTable.lookup arpData.senderIp with
  | Option.none => false
  | some expectedMac => arpData.senderMac ≠ expectedMac

/-! ## SpoofingDetectingStatusManager -/

structure SpoofDetectResult where
  status : Nat := 0
  severity : Severity := .none
  deriving DecidableEq, Repr

inductive Kind
  | arp
  | dns
  deriving DecidableEq, Repr

structure SpoofingDetectingStatusManager where
  arpSpoofDetectResult : SpoofDetectResult := {}
  dnsSpoofDetectResult : SpoofDetectResult := {}
  isCapturing : Bool := false
  isCompletedPageStart : Bool := false
  /-- How often the completion page was started, and the service stopped. -/
  pagesStarted : Nat := 0
  stopsSent : Nat := 0
  deriving DecidableEq, Repr

namespace SpoofingDetectingStatusManager

def spoofingEnd (m : SpoofingDetectingStatusManager) : SpoofingDetectingStatusManager :=
  { m with isCompletedPageStart := true, pagesStarted := m.pagesStarted + 1 }

def checkIfAllCompleted (m : SpoofingDetectingStatusManager) : SpoofingDetectingStatusManager :=
  if m.arpSpoofDetectResult.status = 2 ∧ m.dnsSpoofDetectResult.status = 2 then
    { m with isCapturing := false, stopsSent := m.stopsSent + 1 }.spoofingEnd
  else m

def arpSpoofingCompleted (severity : Severity) (m : SpoofingDetectingStatusManager) : SpoofingDetectingStatusManager :=
  { m with arpSpoofDetectResult := ⟨2, severity⟩ }.checkIfAllCompleted

def dnsSpoofingCompleted (severity : Severity) (m : SpoofingDetectingStatusManager) : SpoofingDetectingStatusManager :=
  { m with dnsSpoofDetectResult := ⟨2, severity⟩ }.checkIfAllCompleted

def statusClear (m : SpoofingDetectingStatusManager) : SpoofingDetectingStatusManager :=
  { m with arpSpoofDetectResult := ⟨0, .none⟩, dnsSpoofDetectResult := ⟨0, .none⟩ }

def getSeverity (m : SpoofingDetectingStatusManager) : Kind → Severity
  | .arp => m.arpSpoofDetectResult.severity
  | .dns => m.dnsSpoofDetectResult.severity

/-- A result that the detectors report. -/
def completed (report : Kind × Severity) (m : SpoofingDetectingStatusManager) : SpoofingDetectingStatusManager :=
  match report.1 with
  | .arp => m.arpSpoofingCompleted report.2
  | .dns => m.dnsSpoofingCompleted report.2

end SpoofingDetectingStatusManager

/-- Whether the completion page shows an attack of the kind. -/
def showsAttack (m : SpoofingDetectingStatusManager) (kind : Kind) : Bool :=
  m.getSeverity kind = .CRITICAL || m.getSeverity kind = .WARNING

/-! ## SpoofingDetectionManager -/

/-- Bytes that are not there are an exception, and the answer is no. -/
def isArpPacket (packet : Packet) : Bool := 14 ≤ packet.length && packet.short 12 = 0x0806

def isDnsPacket (packet : Packet) : Bool :=
  if packet.version = 4 then
    24 ≤ packet.length && packet.byte 9 = 17 && (packet.short 20 = 53 || packet.short 22 = 53)
  else 44 ≤ packet.length && packet.byte 6 = 17 && (packet.short 40 = 53 || packet.short 42 = 53)

/-- What the ARP detector and its manager report, one after the other. -/
def arpReports (packet : Packet) : List (Kind × Severity) :=
  if isArpPacket packet && (ArpData.fromPacket packet).any ArpData.isSpoofed then
    [(.arp, .CRITICAL), (.arp, .CRITICAL)]
  else []

/-- The DNS detector after the packet, and the reports in their order. -/
def analyzePacket (packet : Packet) (d : DnsSpoofingDetector) : DnsSpoofingDetector × List (Kind × Severity) :=
  if isDnsPacket packet then
    ((d.processPacket packet).1, arpReports packet ++ (d.processPacket packet).2.toList.map fun s => (.dns, s))
  else (d, arpReports packet)

end AllInSafe.Detection
