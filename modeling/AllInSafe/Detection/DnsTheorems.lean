import AllInSafe.Detection.Model
import AllInSafe.Tun.Lemmas.NetTexts

/-!
# Genuine DNS traffic is not reported
-/

namespace AllInSafe.Detection
open AllInSafe.Library AllInSafe.Config

/-! ## Traffic -/

namespace Packet

def sourceAddress (packet : Packet) : Packet :=
  if packet.version = 4 then (packet.drop 12).take 4 else (packet.drop 8).take 16

def destinationAddress (packet : Packet) : Packet :=
  if packet.version = 4 then (packet.drop 16).take 4 else (packet.drop 24).take 16

/-- A UDP packet without options. -/
def isUdp (packet : Packet) : Bool :=
  packet.byte 0 = 0x45 && packet.byte 9 = 17 && 28 ≤ packet.length ||
    packet.version = 6 && packet.byte 6 = 17 && 48 ≤ packet.length

/-- A query with the TXID of the packet. -/
def isQueryFor (packet query : Packet) : Bool := query.isQuery && query.txid = packet.txid

end Packet

/-- Every response of the packets has the property, which sees the packets before it. -/
def EveryResponse (P : List Packet → Packet → Prop) (before : List Packet) : List Packet → Prop
  | [] => True
  | packet :: after => (packet.isResponse = true → P before packet) ∧ EveryResponse P (before ++ [packet]) after

instance EveryResponse.decide {P : List Packet → Packet → Prop} [∀ before packet, Decidable (P before packet)] :
    (before packets : List Packet) → Decidable (EveryResponse P before packets)
  | _, [] => isTrue trivial
  | before, packet :: after =>
      have : Decidable (EveryResponse P (before ++ [packet]) after) := EveryResponse.decide _ after
      inferInstanceAs (Decidable (_ ∧ _))

/-- The response answers the last query with its TXID, comes from where that query was sent, and has not travelled
far. -/
def Genuine (before : List Packet) (packet : Packet) : Prop :=
  (before.reverse.find? packet.isQueryFor).map Packet.destinationAddress = some packet.sourceAddress ∧ 10 ≤ packet.ttl

instance (before : List Packet) (packet : Packet) : Decidable (Genuine before packet) := inferInstanceAs (Decidable (_ ∧ _))

/-- The detector that has seen the packets. -/
def detectorAfter (packets : List Packet) : DnsSpoofingDetector :=
  packets.foldl (fun d packet => (d.processPacket packet).1) {}

def ReportedOk (before : List Packet) (packet : Packet) : Prop :=
  ((detectorAfter before).processPacket packet).2 = some .OK

instance (before : List Packet) (packet : Packet) : Decidable (ReportedOk before packet) :=
  inferInstanceAs (Decidable (_ = _))

/-- The response comes from a server of the list, or from the address that the first query with its TXID has come
from. -/
def Known (before : List Packet) (packet : Packet) : Prop :=
  packet.sourceIp ∈ trustedDnsServers ∨ (before.find? packet.isQueryFor).map Packet.sourceIp = some packet.sourceIp

instance (before : List Packet) (packet : Packet) : Decidable (Known before packet) := inferInstanceAs (Decidable (_ ∨ _))

/-! ## The detector -/

variable {packet : Packet} {d : DnsSpoofingDetector}

theorem not_short_iff : ¬ packet.length < 40 ∧ ¬ packet.length < packet.dnsPayloadStart + 12 ↔
    packet.hasDnsHeader = true := by
  simp [Packet.hasDnsHeader]

namespace DnsSpoofingDetector

theorem processPacket_query (h : packet.isQuery = true) : d.processPacket packet =
    if (d.pendingRequests packet.txid).isNone then (d.addRequest packet.txid packet.sourceIp, Option.none)
    else (d, Option.none) := by
  simp only [Packet.isQuery, Bool.and_eq_true] at h
  obtain ⟨hshort, hlong⟩ := not_short_iff.mpr h.1
  simp only [processPacket, if_neg hshort, if_neg hlong, h.2, if_true]

theorem processPacket_response (h : packet.isResponse = true) :
    ((d.processPacket packet).1.pendingRequests = d.pendingRequests) ∧
      (d.processPacket packet).2 = logResult (d.failedChecks packet) := by
  simp only [Packet.isResponse, Bool.and_eq_true] at h
  obtain ⟨hshort, hlong⟩ := not_short_iff.mpr h.1
  simp only [processPacket, if_neg hshort, if_neg hlong, h.2, Bool.not_true, Bool.false_eq_true, if_false]
  simp

theorem processPacket_other (h : packet.isQuery = false) :
    (d.processPacket packet).1.pendingRequests = d.pendingRequests := by
  unfold processPacket
  split_ifs with hshort hlong hflag hnone
  · rfl
  · rfl
  · have hquery : packet.isQuery = true := by
      simp only [Packet.isQuery, Bool.and_eq_true]
      exact ⟨not_short_iff.mp ⟨hshort, hlong⟩, hflag⟩
    rw [hquery] at h
    cases h
  · rfl
  · rfl

theorem processPacket_not_response (h : packet.isResponse = false) : (d.processPacket packet).2 = Option.none := by
  unfold processPacket
  split_ifs with hshort hlong hflag hnone
  · rfl
  · rfl
  · rfl
  · rfl
  · have hresponse : packet.isResponse = true := by
      simp only [Packet.isResponse, Bool.and_eq_true]
      exact ⟨not_short_iff.mp ⟨hshort, hlong⟩, by simpa using hflag⟩
    rw [hresponse] at h
    cases h

end DnsSpoofingDetector

/-- The detector remembers where the first query with a TXID came from. -/
theorem pendingRequests_detectorAfter (packets : List Packet) (t : Nat) :
    (detectorAfter packets).pendingRequests t =
      (packets.find? fun query => query.isQuery && query.txid = t).map Packet.sourceIp := by
  induction packets using List.reverseRecOn with
  | nil => rfl
  | append_singleton packets packet ih =>
      have hstep : detectorAfter (packets ++ [packet]) = ((detectorAfter packets).processPacket packet).1 := by
        simp [detectorAfter]
      rw [hstep, List.find?_append, List.find?_singleton]
      cases hquery : packet.isQuery with
      | false => simp [DnsSpoofingDetector.processPacket_other hquery, ih]
      | true =>
          rw [DnsSpoofingDetector.processPacket_query hquery]
          by_cases htxid : packet.txid = t
          · subst htxid
            cases hfind : packets.find? fun query => query.isQuery && query.txid = packet.txid with
            | none => simp [ih, hfind, DnsSpoofingDetector.addRequest]
            | some first => simp [ih, hfind]
          · have hkept : ((if ((detectorAfter packets).pendingRequests packet.txid).isNone then
                ((detectorAfter packets).addRequest packet.txid packet.sourceIp, Option.none)
              else (detectorAfter packets, (Option.none : Option Severity))).1).pendingRequests t =
                (detectorAfter packets).pendingRequests t := by
              split_ifs
              · simp [DnsSpoofingDetector.addRequest, Ne.symm htxid]
              · rfl
            rw [hkept, ih]
            simp [htxid]

theorem logResult_ok {n : Nat} (h : n ≤ 3) : DnsSpoofingDetector.logResult n = some .OK ↔ n ≤ 1 := by
  interval_cases n <;> decide

theorem failedChecks_le : d.failedChecks packet ≤ 3 := by
  unfold DnsSpoofingDetector.failedChecks
  split_ifs <;> decide

/-- A genuine response fails the check of its server, unless the query came from there, and the check of the list. -/
theorem reportedOk_iff {before : List Packet} (hresponse : packet.isResponse = true) (h : Genuine before packet) :
    ReportedOk before packet ↔ Known before packet := by
  obtain ⟨hanswers, httl⟩ := h
  obtain ⟨query, hquery, -⟩ := Option.map_eq_some_iff.mp hanswers
  have hsome : (before.find? packet.isQueryFor).isSome = true := by
    rw [List.find?_isSome]
    exact ⟨query, List.mem_reverse.mp (List.mem_of_find?_eq_some hquery), List.find?_some hquery⟩
  obtain ⟨first, hfirst⟩ := Option.isSome_iff_exists.mp hsome
  have hpending : (detectorAfter before).pendingRequests packet.txid = some first.sourceIp := by
    rw [pendingRequests_detectorAfter]
    exact congrArg (Option.map Packet.sourceIp) hfirst
  rw [ReportedOk, (DnsSpoofingDetector.processPacket_response hresponse).2, logResult_ok failedChecks_le, Known, hfirst,
    DnsSpoofingDetector.failedChecks, hpending]
  by_cases htrusted : packet.sourceIp ∈ trustedDnsServers <;> by_cases hsource : first.sourceIp = packet.sourceIp <;>
    simp [htrusted, hsource, Nat.not_lt.mpr httl]

theorem EveryResponse.congr {P Q R : List Packet → Packet → Prop}
    (hstep : ∀ {before packet}, packet.isResponse = true → P before packet → (Q before packet ↔ R before packet))
    {before packets : List Packet} (h : EveryResponse P before packets) :
    EveryResponse Q before packets ↔ EveryResponse R before packets := by
  induction packets generalizing before with
  | nil => exact Iff.rfl
  | cons packet after ih =>
      exact and_congr (forall_congr' fun hresponse => hstep hresponse (h.1 hresponse)) (ih h.2)

/-- In all genuine traffic, every response is reported as OK exactly when every one comes from a server of the list, or
from the address that the first query with its TXID has come from. -/
theorem genuine_reportedOk_iff (packets : List Packet) (h : EveryResponse Genuine [] packets) :
    EveryResponse ReportedOk [] packets ↔ EveryResponse Known [] packets :=
  h.congr reportedOk_iff

/-! ### IPv6 -/

/-- No text that the detector makes of an IPv6 address is in the list, which has the short forms. -/
theorem ipv6_untrusted (h : packet.version ≠ 4) : packet.sourceIp ∉ trustedDnsServers := by
  have hgroups : Str.parts (· = ':') packet.sourceIp =
      (List.range 8).map fun k => Nat.toDigits 16 (packet.short (8 + 2 * k)) := by
    rw [Packet.sourceIp, if_neg h]
    apply Str.parts_intercalate (by decide)
    intro group hgroup c hc
    have hmem : group ∈ (List.range 8).map fun k => Nat.toDigits 16 (packet.short (8 + 2 * k)) := hgroup
    obtain ⟨k, -, rfl⟩ := List.mem_map.mp hmem
    have hne : c ≠ ':' := fun heq => Tun.colon_notMem_hex _ (heq ▸ hc)
    simp [hne]
  have hlength : (Str.parts (· = ':') packet.sourceIp).length = 8 := by rw [hgroups]; rfl
  intro htrusted
  have hlist : ∀ s ∈ trustedDnsServers, (Str.parts (· = ':') s).length ≠ 8 := by decide
  exact hlist _ htrusted hlength

/-! ### A server of the network -/

/-- A packet with a DNS header and no more. -/
def ipv4Packet (ttl : UInt8) (source destination : List UInt8) (ports txid flags : List UInt8) : Packet :=
  [0x45, 0, 0, 40, 0, 0, 0, 0, ttl, 17, 0, 0] ++ source ++ destination ++ ports ++ [0, 20, 0, 0] ++ txid ++ flags ++
    [0, 1, 0, 0, 0, 0, 0, 0]

/-- A query to a server and its answer. -/
def exchange (server : List UInt8) : List Packet :=
  [ipv4Packet 64 [10, 0, 0, 2] server [200, 0, 0, 53] [1, 2] [1, 0],
    ipv4Packet 56 server [10, 0, 0, 2] [0, 53, 200, 0] [1, 2] [0x81, 0x80]]

theorem exchange_ok : EveryResponse ReportedOk [] (exchange [8, 8, 8, 8]) :=
  (genuine_reportedOk_iff _ (by decide)).mpr (by decide)

/-- The answer of a server that is not in the list is reported. -/
theorem genuine_reported :
    (∀ packet ∈ exchange [168, 126, 63, 1], packet.isUdp = true) ∧
      EveryResponse Genuine [] (exchange [168, 126, 63, 1]) ∧ ¬ EveryResponse ReportedOk [] (exchange [168, 126, 63, 1]) := by
  decide

end AllInSafe.Detection
