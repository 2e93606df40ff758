import AllInSafe.Detection.DnsTheorems

/-!
# How often a DNS transaction is warned about
-/

namespace AllInSafe.Detection
open AllInSafe.Library

/-! ## Alerts -/

/-- `logResult` sends an alert with the severities of an attack. -/
def alerts : Option Severity → Bool
  | some .WARNING | some .CRITICAL => true
  | some .none | some .OK | none => false

/-- The TXIDs of the responses for which the detector sends an alert, in their order. -/
def alertedTxids (d : DnsSpoofingDetector) : List Packet → List Nat
  | [] => []
  | packet :: packets =>
      (if alerts (d.processPacket packet).2 then [packet.txid] else []) ++
        alertedTxids (d.processPacket packet).1 packets

/-- No TXID is alerted more than once by a new detector. -/
def AlertsOnce (packets : List Packet) : Prop := ∀ txid, (alertedTxids {} packets).count txid ≤ 1

/-! ## Suspicious responses -/

/-- The response does not come from where the first query with its TXID has come from. -/
def FromElsewhere (before : List Packet) (packet : Packet) : Prop :=
  (before.find? packet.isQueryFor).map Packet.sourceIp ≠ some packet.sourceIp

instance (before : List Packet) (packet : Packet) : Decidable (FromElsewhere before packet) :=
  inferInstanceAs (Decidable (_ ≠ _))

/-- Two of three hold of the response: it comes from elsewhere, its TTL is below ten and not zero, its server is not in
the list. -/
def Suspicious (before : List Packet) (packet : Packet) : Prop :=
  packet.isResponse = true ∧
    2 ≤ (if FromElsewhere before packet then 1 else 0) + (if 1 ≤ packet.ttl ∧ packet.ttl < 10 then 1 else 0) +
      (if packet.sourceIp ∉ trustedDnsServers then 1 else 0)

instance (before : List Packet) (packet : Packet) : Decidable (Suspicious before packet) :=
  inferInstanceAs (Decidable (_ ∧ _))

/-- No two suspicious responses have one TXID. -/
def SuspectedOnce (packets : List Packet) : Prop :=
  ∀ before first between second after, packets = before ++ first :: (between ++ second :: after) →
    Suspicious before first → Suspicious (before ++ first :: between) second → first.txid ≠ second.txid

variable {packet : Packet} {before packets : List Packet}

theorem failedChecks_detectorAfter (before : List Packet) (packet : Packet) :
    (detectorAfter before).failedChecks packet =
      (if FromElsewhere before packet then 1 else 0) + (if 1 ≤ packet.ttl ∧ packet.ttl < 10 then 1 else 0) +
        (if packet.sourceIp ∉ trustedDnsServers then 1 else 0) := by
  rw [DnsSpoofingDetector.failedChecks, pendingRequests_detectorAfter]
  rfl

theorem alerts_logResult {n : Nat} (h : n ≤ 3) : alerts (DnsSpoofingDetector.logResult n) = true ↔ 2 ≤ n := by
  interval_cases n <;> decide

/-- A packet is alerted exactly when it is a suspicious response; the warned TXIDs do not count. -/
theorem alerts_iff : alerts ((detectorAfter before).processPacket packet).2 = true ↔ Suspicious before packet := by
  cases hresponse : packet.isResponse with
  | false => simp [DnsSpoofingDetector.processPacket_not_response hresponse, alerts, Suspicious, hresponse]
  | true =>
      rw [(DnsSpoofingDetector.processPacket_response hresponse).2, alerts_logResult failedChecks_le,
        failedChecks_detectorAfter, Suspicious, hresponse]
      simp

theorem detectorAfter_concat (before : List Packet) (packet : Packet) :
    detectorAfter (before ++ [packet]) = ((detectorAfter before).processPacket packet).1 := by
  simp [detectorAfter]

theorem alertedTxids_cons : alertedTxids (detectorAfter before) (packet :: packets) =
    (if Suspicious before packet then [packet.txid] else []) ++
      alertedTxids (detectorAfter (before ++ [packet])) packets := by
  rw [alertedTxids, ← detectorAfter_concat]
  simp only [alerts_iff]

theorem mem_alertedTxids {txid : Nat} : txid ∈ alertedTxids (detectorAfter before) packets ↔
    ∃ between packet after, packets = between ++ packet :: after ∧ Suspicious (before ++ between) packet ∧
      packet.txid = txid := by
  induction packets generalizing before with
  | nil => simp [alertedTxids]
  | cons packet packets ih =>
      rw [alertedTxids_cons, List.mem_append, ih]
      constructor
      · rintro (h | ⟨between, later, after, rfl, hsuspicious, rfl⟩)
        · split_ifs at h with hsuspicious
          · exact ⟨[], packet, packets, rfl, by simpa using hsuspicious, (List.mem_singleton.mp h).symm⟩
          · cases h
        · exact ⟨packet :: between, later, after, rfl, by simpa using hsuspicious, rfl⟩
      · rintro ⟨between, later, after, heq, hsuspicious, rfl⟩
        cases between with
        | nil =>
            obtain ⟨rfl, -⟩ := List.cons.inj heq
            rw [List.append_nil] at hsuspicious
            simp [hsuspicious]
        | cons first between =>
            obtain ⟨rfl, rfl⟩ := List.cons.inj heq
            exact .inr ⟨between, later, after, rfl, by simpa using hsuspicious, rfl⟩

/-- A TXID is alerted twice where two suspicious responses have it. -/
theorem nodup_alertedTxids : (alertedTxids (detectorAfter before) packets).Nodup ↔
    ∀ front first between second after, packets = front ++ first :: (between ++ second :: after) →
      Suspicious (before ++ front) first → Suspicious (before ++ front ++ first :: between) second →
        first.txid ≠ second.txid := by
  induction packets generalizing before with
  | nil => simp [alertedTxids]
  | cons packet packets ih =>
      have hsplit : (alertedTxids (detectorAfter before) (packet :: packets)).Nodup ↔
          (Suspicious before packet → packet.txid ∉ alertedTxids (detectorAfter (before ++ [packet])) packets) ∧
            (alertedTxids (detectorAfter (before ++ [packet])) packets).Nodup := by
        rw [alertedTxids_cons]
        split_ifs with hsuspicious <;> simp [hsuspicious]
      rw [hsplit, ih]
      constructor
      · rintro ⟨hfirst, hrest⟩ front first between second after heq hsuspicious hagain
        cases front with
        | nil =>
            obtain ⟨rfl, rfl⟩ := List.cons.inj heq
            rw [List.append_nil] at hsuspicious hagain
            intro hsame
            refine hfirst hsuspicious (mem_alertedTxids.mpr ⟨between, second, after, rfl, ?_, hsame.symm⟩)
            simpa using hagain
        | cons front₀ front =>
            obtain ⟨rfl, rfl⟩ := List.cons.inj heq
            exact hrest front first between second after rfl (by simpa using hsuspicious) (by simpa using hagain)
      · intro h
        constructor
        · intro hsuspicious hmem
          obtain ⟨between, second, after, rfl, hagain, hsame⟩ := mem_alertedTxids.mp hmem
          exact h [] packet between second after rfl (by simpa using hsuspicious) (by simpa using hagain) hsame.symm
        · rintro front first between second after rfl hsuspicious hagain
          exact h (packet :: front) first between second after rfl (by simpa using hsuspicious) (by simpa using hagain)

/-- A new detector alerts every TXID once at most exactly when no two suspicious responses have one TXID. -/
theorem alertsOnce_iff (packets : List Packet) : AlertsOnce packets ↔ SuspectedOnce packets := by
  have hnew : detectorAfter [] = {} := rfl
  have hnodup := @nodup_alertedTxids [] packets
  rw [AlertsOnce, ← List.nodup_iff_count_le_one, ← hnew, hnodup]
  rfl

/-- Twice the same answer that nobody asked for, from a server that is not in the list. -/
theorem answer_alerted_twice :
    let answer := ipv4Packet 56 [168, 126, 63, 1] [10, 0, 0, 2] [0, 53, 200, 0] [1, 2] [0x81, 0x80]
    alertedTxids {} [answer, answer] = [0x0102, 0x0102] ∧ ¬ AlertsOnce [answer, answer] := by
  intro answer
  have htwice : alertedTxids {} [answer, answer] = [0x0102, 0x0102] := by decide
  refine ⟨htwice, fun honce => ?_⟩
  have hcount := honce 0x0102
  rw [htwice] at hcount
  exact absurd hcount (by decide)

end AllInSafe.Detection
