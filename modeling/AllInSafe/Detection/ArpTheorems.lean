import AllInSafe.Config.Lemmas.Decimal
import AllInSafe.Detection.Model
import AllInSafe.Library.Ipv6Text

/-!
# ARP verdicts

The table of known addresses writes a MAC with dashes, the detector writes that of a packet with colons.
-/

namespace AllInSafe.Detection
open AllInSafe.Library AllInSafe.Config

/-! ## Addresses behind their texts -/

def addressBytes (ip : Str) : Option (List Nat) := (Str.parts (· = '.') ip).mapM digits

def macBytes (mac : Str) : Option (List Nat) := (Str.parts (· = '-') mac).mapM (Ipv6Text.number 16)

namespace Packet

def senderIp (packet : Packet) : List Nat := (List.range 4).map fun k => packet.byte (28 + k)

def senderMac (packet : Packet) : List Nat := (List.range 6).map fun k => packet.byte (22 + k)

/-- The entry of the table is about the sender of the packet. -/
def Knows (packet : Packet) (entry : Str × Str) : Prop := addressBytes entry.1 = some packet.senderIp

instance (packet : Packet) (entry : Str × Str) : Decidable (packet.Knows entry) := inferInstanceAs (Decidable (_ = _))

/-- The sender is in the table, with another MAC. -/
def ForeignMac (packet : Packet) : Prop :=
  ∃ entry ∈ knownMacTable, packet.Knows entry ∧ macBytes entry.2 ≠ some packet.senderMac

/-- The sender is in the table, with its own MAC. -/
def OwnMac (packet : Packet) : Prop :=
  ∃ entry ∈ knownMacTable, packet.Knows entry ∧ macBytes entry.2 = some packet.senderMac

instance (packet : Packet) : Decidable packet.ForeignMac := inferInstanceAs (Decidable (∃ entry ∈ knownMacTable, _))

instance (packet : Packet) : Decidable packet.OwnMac := inferInstanceAs (Decidable (∃ entry ∈ knownMacTable, _))

end Packet

variable {packet : Packet} {d : DnsSpoofingDetector}

/-! ## The texts -/

/-- The text of the bytes. -/
def joinedBytes (bytes : List Nat) : Str := List.intercalate ['.'] (bytes.map decimal)

def macTextOf (bytes : List Nat) : Str := List.intercalate [':'] (bytes.map Packet.hexByte)

theorem colon_mem_macTextOf {bytes : List Nat} (h : 2 ≤ bytes.length) : ':' ∈ macTextOf bytes := by
  match bytes with
  | m :: n :: ns => simp [macTextOf]

theorem mapM_digits_decimal (ns : List Nat) : (ns.map decimal).mapM digits = some ns := by
  induction ns with
  | nil => rfl
  | cons n ns ih => simp [digits_decimal, ih]

theorem dotted_eq : packet.dotted 28 = joinedBytes packet.senderIp := by
  simp [Packet.dotted, joinedBytes, Packet.senderIp, Function.comp_def]

theorem addressBytes_joinedBytes {bytes : List Nat} (hne : bytes ≠ []) :
    addressBytes (joinedBytes bytes) = some bytes := by
  cases bytes with
  | nil => exact absurd rfl hne
  | cons n ns =>
      have hdot : ∀ w ∈ decimal n :: ns.map decimal, ∀ c ∈ w, decide (c = '.') = false := by
        intro w hw c hc
        obtain ⟨m, -, rfl⟩ : ∃ m ∈ n :: ns, decimal m = w := List.mem_map.mp hw
        have hdigit := isDigit_of_mem_decimal hc
        have hne : c ≠ '.' := by rintro rfl; cases hdigit
        simp [hne]
      rw [addressBytes, joinedBytes, List.map_cons, Str.parts_intercalate (by decide) hdot, ← List.map_cons,
        mapM_digits_decimal]

theorem addressBytes_dotted : addressBytes (packet.dotted 28) = some packet.senderIp := by
  rw [dotted_eq]
  exact addressBytes_joinedBytes (by simp [Packet.senderIp])

/-- The text of the sender's address is the key of the entry exactly when its bytes are. -/
theorem dotted_eq_iff {entry : Str × Str} (h : entry ∈ knownMacTable) :
    packet.dotted 28 = entry.1 ↔ packet.Knows entry := by
  constructor
  · intro heq
    rw [Packet.Knows, ← heq, addressBytes_dotted]
  · intro hknows
    have hwritten : ∀ entry ∈ knownMacTable, (addressBytes entry.1).map joinedBytes = some entry.1 := by decide
    have hentry := hwritten entry h
    rw [hknows, Option.map_some, Option.some.injEq] at hentry
    rw [← hentry]
    exact dotted_eq

/-- A MAC with colons is none of the table. -/
theorem isSpoofed_iff (arpData : ArpData) (hmac : ':' ∈ arpData.senderMac) :
    arpData.isSpoofed = true ↔ ∃ entry ∈ knownMacTable, arpData.senderIp = entry.1 := by
  have hdashes : ∀ entry ∈ knownMacTable, ':' ∉ entry.2 := by decide
  rw [ArpData.isSpoofed]
  cases hlookup : knownMacTable.lookup arpData.senderIp with
  | none =>
      have hnone := List.lookup_eq_none_iff.mp hlookup
      simp only [Bool.false_eq_true, false_iff, not_exists, not_and]
      intro entry hentry heq
      simpa [heq] using hnone entry hentry
  | some expectedMac =>
      obtain ⟨before, after, heq, -⟩ := List.lookup_eq_some_iff.mp hlookup
      have hentry : (arpData.senderIp, expectedMac) ∈ knownMacTable := by simp [heq]
      have hne : arpData.senderMac ≠ expectedMac := fun h => hdashes _ hentry (h ▸ hmac)
      simp only [hne, ne_eq, not_false_eq_true, decide_true, true_iff]
      exact ⟨_, hentry, rfl⟩

/-! ## The verdict -/

theorem reported_iff (hlength : 42 ≤ packet.length) (harp : packet.short 12 = 0x0806) :
    (.arp, .CRITICAL) ∈ (analyzePacket packet d).2 ↔ ∃ entry ∈ knownMacTable, packet.Knows entry := by
  have hreports : (.arp, .CRITICAL) ∈ (analyzePacket packet d).2 ↔ (.arp, .CRITICAL) ∈ arpReports packet := by
    rw [analyzePacket]
    split_ifs <;> simp
  have hisArp : isArpPacket packet = true := by
    simp only [isArpPacket, harp, decide_true, Bool.and_true, decide_eq_true_eq]
    omega
  have hdata : ArpData.fromPacket packet = some ⟨packet.dotted 28, macTextOf packet.senderMac⟩ := by
    simp [ArpData.fromPacket, Nat.not_lt.mpr hlength, macTextOf, Packet.senderMac, Function.comp_def]
  have hspoofed := isSpoofed_iff ⟨packet.dotted 28, macTextOf packet.senderMac⟩
    (colon_mem_macTextOf (by simp [Packet.senderMac]))
  have hknown : (∃ entry ∈ knownMacTable, packet.dotted 28 = entry.1) ↔ ∃ entry ∈ knownMacTable, packet.Knows entry :=
    exists_congr fun entry => and_congr_right fun hentry => dotted_eq_iff hentry
  rw [hreports, arpReports, hisArp, hdata, ← hknown, ← hspoofed]
  split_ifs with h <;> simpa using h

/-- An ARP packet is reported exactly when its sender is in the table with another MAC, unless it is in the table with
its own: that is reported, too. -/
theorem arp_verdict_iff (d : DnsSpoofingDetector) (hlength : 42 ≤ packet.length) (harp : packet.short 12 = 0x0806) :
    ((.arp, .CRITICAL) ∈ (analyzePacket packet d).2 ↔ packet.ForeignMac) ↔ ¬ packet.OwnMac := by
  have once : ∀ entry ∈ knownMacTable, ∀ other ∈ knownMacTable, addressBytes entry.1 = addressBytes other.1 →
      entry = other := by decide
  rw [reported_iff hlength harp]
  constructor
  · rintro h ⟨entry, hentry, hknows, hmac⟩
    obtain ⟨other, hother, hknowsOther, hforeign⟩ := h.mp ⟨entry, hentry, hknows⟩
    have hsame : other = entry := once other hother entry hentry (hknowsOther.trans hknows.symm)
    rw [hsame] at hforeign
    exact hforeign hmac
  · intro hown
    constructor
    · rintro ⟨entry, hentry, hknows⟩
      exact ⟨entry, hentry, hknows, fun hmac => hown ⟨entry, hentry, hknows, hmac⟩⟩
    · rintro ⟨entry, hentry, hknows, -⟩
      exact ⟨entry, hentry, hknows⟩

/-- An ARP reply with the MAC and the IP of its sender. -/
def arpReply (mac ip : List UInt8) : Packet :=
  [0x3c, 0x5a, 0xb4, 1, 2, 3] ++ mac ++ [8, 6, 0, 1, 8, 0, 6, 4, 0, 2] ++ mac ++ ip ++
    [0x3c, 0x5a, 0xb4, 1, 2, 3, 192, 168, 78, 20]

theorem arp_verdict_iff_stranger :
    ((.arp, .CRITICAL) ∈ (analyzePacket (arpReply [2, 0, 0, 0, 0, 1] [192, 168, 78, 1]) {}).2 ↔
      (arpReply [2, 0, 0, 0, 0, 1] [192, 168, 78, 1]).ForeignMac) :=
  (arp_verdict_iff {} (by decide) (by decide)).mpr (by decide)

/-- The gateway of the table answers with its own MAC and is reported. -/
theorem gateway_reported :
    let packet := arpReply [0x00, 0x50, 0x56, 0xf5, 0xb8, 0xcc] [192, 168, 78, 1]
    packet.length = 42 ∧ packet.short 12 = 0x0806 ∧ packet.OwnMac ∧ ¬ packet.ForeignMac ∧
      (.arp, .CRITICAL) ∈ (analyzePacket packet {}).2 := by
  decide

end AllInSafe.Detection
