import AllInSafe.Detection.Model

/-!
# Which IPv4 packets are read correctly

`isArpPacket` reads an Ethernet frame and the DNS detector reads a header without options. A tun device delivers
neither.
-/

namespace AllInSafe.Detection
open AllInSafe.Library

namespace Packet

/-! ## The header that the packet has -/

def headerLength (packet : Packet) : Nat := packet.byte 0 % 16 * 4

def fragmentOffset (packet : Packet) : Nat := packet.short 6 % 8192

/-- A well-formed IPv4 packet, without a link-layer header. -/
structure IsIpv4 (packet : Packet) : Prop where
  version : packet.version = 4
  headerLength : 20 ≤ packet.headerLength
  header : packet.headerLength ≤ packet.length
  totalLength : packet.short 2 = packet.length

/-- One of the two ports that stand at the index is that of DNS. -/
def says53 (packet : Packet) (i : Nat) : Prop := packet.short i = 53 ∨ packet.short (i + 2) = 53

instance (packet : Packet) (i : Nat) : Decidable (packet.says53 i) := inferInstanceAs (Decidable (_ ∨ _))

/-- The fragments of a datagram but the first one have no ports. -/
def HasPorts (packet : Packet) : Prop := packet.fragmentOffset = 0 ∧ packet.headerLength + 4 ≤ packet.length

instance (packet : Packet) : Decidable packet.HasPorts := inferInstanceAs (Decidable (_ ∧ _))

/-- UDP with source or destination port 53. -/
def IsDns (packet : Packet) : Prop := packet.byte 9 = 17 ∧ packet.HasPorts ∧ packet.says53 packet.headerLength

instance (packet : Packet) : Decidable packet.IsDns := inferInstanceAs (Decidable (_ ∧ _))

def responseFlagAt (packet : Packet) (i : Nat) : Bool := packet.short i &&& 0x8000 ≠ 0

/-- What is read of the DNS header at the index is what stands behind the header of the packet and the UDP header. -/
def HeaderAt (packet : Packet) (i : Nat) : Prop :=
  packet.headerLength + 12 ≤ packet.length ∧ packet.short i = packet.short (packet.headerLength + 8) ∧
    packet.responseFlagAt (i + 2) = packet.responseFlagAt (packet.headerLength + 10)

instance (packet : Packet) (i : Nat) : Decidable (packet.HeaderAt i) := inferInstanceAs (Decidable (_ ∧ _))

/-! ## Correct readings -/

/-- The packet is not taken for ARP, goes to the DNS detector when it is DNS and only then, and the TXID and the flag
that are read there are those of its DNS header. -/
structure ReadCorrectly (packet : Packet) : Prop where
  notArp : isArpPacket packet = false
  dns : isDnsPacket packet = true ↔ packet.IsDns
  txid : isDnsPacket packet = true → packet.hasDnsHeader = true → packet.headerLength + 12 ≤ packet.length ∧
    packet.txid = packet.short (packet.headerLength + 8) ∧
    packet.responseFlag = packet.responseFlagAt (packet.headerLength + 10)

/-- The source is not in 8.6.0.0/16. A UDP packet without options is the first fragment where its data begin like ports
of DNS. With options, what stands at the places of the ports and of the DNS header says what the true places say. -/
def PlacesAgree (packet : Packet) : Prop :=
  ¬ (packet.byte 12 = 8 ∧ packet.byte 13 = 6) ∧
  (packet.byte 9 = 17 →
    if packet.headerLength = 20 then 24 ≤ packet.length → packet.says53 20 → packet.fragmentOffset = 0
    else (packet.says53 20 ↔ packet.HasPorts ∧ packet.says53 packet.headerLength) ∧
      (packet.says53 20 → 40 ≤ packet.length → packet.HeaderAt 28))

instance (packet : Packet) : Decidable packet.PlacesAgree := inferInstanceAs (Decidable (_ ∧ _))

variable {packet : Packet}

theorem byte_lt (packet : Packet) (i : Nat) : packet.byte i < 256 := (packet.getD i 0).toNat_lt

namespace IsIpv4

theorem isArpPacket_iff (h : packet.IsIpv4) :
    isArpPacket packet = true ↔ packet.byte 12 = 8 ∧ packet.byte 13 = 6 := by
  have hlength : 14 ≤ packet.length := by
    have := h.headerLength.trans h.header
    omega
  have hlow := packet.byte_lt 13
  have hshort : packet.short 12 = packet.byte 12 * 256 + packet.byte 13 := rfl
  rw [isArpPacket, Bool.and_eq_true, decide_eq_true_eq, decide_eq_true_eq, hshort]
  omega

theorem isDnsPacket_iff (h : packet.IsIpv4) :
    isDnsPacket packet = true ↔ 24 ≤ packet.length ∧ packet.byte 9 = 17 ∧ packet.says53 20 := by
  simp [isDnsPacket, h.version, says53, and_assoc]

theorem hasDnsHeader_iff (h : packet.IsIpv4) : packet.hasDnsHeader = true ↔ 40 ≤ packet.length := by
  simp [hasDnsHeader, dnsPayloadStart, ipHeaderSize, h.version]

theorem headerAt_iff (h : packet.IsIpv4) : packet.HeaderAt 28 ↔
    packet.headerLength + 12 ≤ packet.length ∧ packet.txid = packet.short (packet.headerLength + 8) ∧
      packet.responseFlag = packet.responseFlagAt (packet.headerLength + 10) := by
  have hstart : packet.dnsPayloadStart = 28 := by simp [dnsPayloadStart, ipHeaderSize, h.version]
  simp [HeaderAt, txid, responseFlag, flags, responseFlagAt, hstart]

end IsIpv4

/-- A well-formed IPv4 packet is classified and read correctly exactly when its source is not in 8.6.0.0/16 and the
fixed places agree with the true ones. -/
theorem readCorrectly_iff (h : packet.IsIpv4) : packet.ReadCorrectly ↔ packet.PlacesAgree := by
  have hheader := h.headerLength.trans h.header
  have harp : isArpPacket packet = false ↔ ¬ (packet.byte 12 = 8 ∧ packet.byte 13 = 6) := by
    rw [← h.isArpPacket_iff, Bool.not_eq_true]
  have hread : packet.ReadCorrectly ↔ isArpPacket packet = false ∧ (isDnsPacket packet = true ↔ packet.IsDns) ∧
      (isDnsPacket packet = true → packet.hasDnsHeader = true → packet.HeaderAt 28) := by
    rw [h.headerAt_iff]
    exact ⟨fun hr => ⟨hr.notArp, hr.dns, hr.txid⟩, fun hr => ⟨hr.1, hr.2.1, hr.2.2⟩⟩
  rw [hread, PlacesAgree, harp, h.isDnsPacket_iff, h.hasDnsHeader_iff, IsDns]
  refine and_congr_right fun _ => ?_
  by_cases hudp : packet.byte 9 = 17
  · simp only [hudp, true_and, true_implies]
    split_ifs with hplain
    · -- The places are the true ones.
      have hat : 40 ≤ packet.length → packet.HeaderAt 28 := fun hlong => by
        rw [HeaderAt, hplain]
        exact ⟨by omega, rfl, rfl⟩
      rw [HasPorts, hplain]
      constructor
      · rintro ⟨hdns, -⟩ hlong hsays
        exact (hdns.mp ⟨hlong, hsays⟩).1.1
      · refine fun hfirst => ⟨⟨fun ⟨hlong, hsays⟩ => ⟨⟨hfirst hlong hsays, hlong⟩, hsays⟩, ?_⟩, fun _ => hat⟩
        rintro ⟨⟨-, hlong⟩, hsays⟩
        exact ⟨hlong, hsays⟩
    · have hlong : 24 ≤ packet.length := by
        have hwords : packet.headerLength = packet.byte 0 % 16 * 4 := rfl
        have hleast := h.headerLength
        have hle := h.header
        omega
      simp only [hlong, true_and]
  · simp [hudp]

/-- A DNS query without options. -/
def plainQuery : Packet :=
  [0x45, 0, 0, 40, 0, 0, 0, 0, 64, 17, 0x60, 0xb4, 10, 0, 0, 2, 8, 8, 8, 8] ++ [200, 0, 0, 53, 0, 20, 0, 0] ++
    [1, 2, 1, 0, 0, 0, 0, 0, 0, 0, 0, 0]

theorem readCorrectly_plainQuery : plainQuery.IsDns ∧ plainQuery.ReadCorrectly :=
  ⟨by decide, (readCorrectly_iff ⟨by decide, by decide, by decide, by decide⟩).mpr (by decide)⟩

/-- A ping from 8.6.1.1. -/
def ping : Packet :=
  [0x45, 0, 0, 28, 0, 0, 0, 0, 64, 1, 0x67, 0xd9, 8, 6, 1, 1, 10, 0, 0, 2] ++ [8, 0, 0xf7, 0xfd, 0, 1, 0, 1]

/-- A DNS query with an option in its IP header. -/
def optionQuery : Packet :=
  [0x46, 0, 0, 44, 0, 0, 0, 0, 64, 17, 0x5d, 0xaf, 10, 0, 0, 2, 8, 8, 8, 8, 1, 1, 1, 0] ++
    [200, 0, 0, 53, 0, 20, 0, 0] ++ [1, 2, 1, 0, 0, 0, 0, 0, 0, 0, 0, 0]

/-- The ping is taken for ARP, and the query is not seen. -/
theorem ping_taken_for_arp :
    (ping.IsIpv4 ∧ isArpPacket ping = true ∧ ¬ ping.ReadCorrectly) ∧
      optionQuery.IsIpv4 ∧ optionQuery.IsDns ∧ isDnsPacket optionQuery = false ∧ ¬ optionQuery.ReadCorrectly := by
  have hping : ping.IsIpv4 := ⟨by decide, by decide, by decide, by decide⟩
  have hquery : optionQuery.IsIpv4 := ⟨by decide, by decide, by decide, by decide⟩
  have harp : isArpPacket ping = true := by decide
  have hdns : optionQuery.IsDns := by decide
  have hunseen : isDnsPacket optionQuery = false := by decide
  refine ⟨⟨hping, harp, fun hread => ?_⟩, hquery, hdns, hunseen, fun hread => ?_⟩
  · have hnot := hread.notArp
    rw [harp] at hnot
    cases hnot
  · have hseen := hread.dns.mpr hdns
    rw [hunseen] at hseen
    cases hseen

end Packet

end AllInSafe.Detection
