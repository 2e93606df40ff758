import AllInSafe.Detection.DnsTheorems

/-!
# Verdicts are not downgraded
-/

namespace AllInSafe.Detection
open AllInSafe.Library

/-! ## Sessions -/

/-- The reports for the packets, in their order. -/
def reports (d : DnsSpoofingDetector) : List Packet → List (Kind × Severity)
  | [] => []
  | packet :: packets => (analyzePacket packet d).2 ++ reports (analyzePacket packet d).1 packets

/-- The severities that are reported for a kind. -/
def severities (kind : Kind) (l : List (Kind × Severity)) : List Severity :=
  (l.filter fun report => report.1 = kind).map Prod.snd

/-- The status that the completion page reads after `statusClear` and the packets. -/
def statusAfter (d : DnsSpoofingDetector) (m : SpoofingDetectingStatusManager) (packets : List Packet) :
    SpoofingDetectingStatusManager :=
  (reports d packets).foldl (fun m report => m.completed report) m.statusClear

/-- What was reported as an attack is read with at least its severity, and shown. -/
def NotDowngraded (d : DnsSpoofingDetector) (m : SpoofingDetectingStatusManager) (packets : List Packet) : Prop :=
  ∀ kind, ∀ severity ∈ severities kind (reports d packets), Severity.WARNING.rank ≤ severity.rank →
    severity.rank ≤ ((statusAfter d m packets).getSeverity kind).rank ∧ showsAttack (statusAfter d m packets) kind = true

/-- The numbers of checks that the analysed DNS responses fail, in their order. -/
def responseChecks (d : DnsSpoofingDetector) : List Packet → List Nat
  | [] => []
  | packet :: packets =>
      (if isDnsPacket packet && packet.isResponse then [d.failedChecks packet] else []) ++
        responseChecks (analyzePacket packet d).1 packets

/-- The last response fails as many checks as each one that fails two or three. -/
def WorstLast (checks : List Nat) : Prop := ∀ n ∈ checks, 2 ≤ n → ∃ last ∈ checks.getLast?, n ≤ last

/-! ## The status manager -/

variable {m : SpoofingDetectingStatusManager} {d : DnsSpoofingDetector} {packets : List Packet}

@[simp] theorem getSeverity_checkIfAllCompleted {kind : Kind} :
    m.checkIfAllCompleted.getSeverity kind = m.getSeverity kind := by
  unfold SpoofingDetectingStatusManager.checkIfAllCompleted
  split_ifs
  · cases kind <;> rfl
  · rfl

/-- The last report of a kind is what is read. -/
theorem getSeverity_completed (kind : Kind) (report : Kind × Severity) :
    (m.completed report).getSeverity kind = if report.1 = kind then report.2 else m.getSeverity kind := by
  obtain ⟨reported, severity⟩ := report
  cases reported with
  | arp =>
      simp only [SpoofingDetectingStatusManager.completed, SpoofingDetectingStatusManager.arpSpoofingCompleted,
        getSeverity_checkIfAllCompleted]
      cases kind <;> rfl
  | dns =>
      simp only [SpoofingDetectingStatusManager.completed, SpoofingDetectingStatusManager.dnsSpoofingCompleted,
        getSeverity_checkIfAllCompleted]
      cases kind <;> rfl

theorem getSeverity_foldl (kind : Kind) (l : List (Kind × Severity)) :
    (l.foldl (fun m report => m.completed report) m).getSeverity kind =
      (severities kind l).getLast?.getD (m.getSeverity kind) := by
  induction l using List.reverseRecOn with
  | nil => rfl
  | append_singleton l report ih =>
      rw [List.foldl_append, List.foldl_cons, List.foldl_nil, getSeverity_completed, ih]
      by_cases hkind : report.1 = kind <;> simp [severities, List.filter_append, hkind]

theorem showsAttack_iff (kind : Kind) : showsAttack m kind = true ↔ Severity.WARNING.rank ≤ (m.getSeverity kind).rank := by
  unfold showsAttack
  cases m.getSeverity kind <;> decide

theorem getSeverity_statusAfter (kind : Kind) :
    (statusAfter d m packets).getSeverity kind = (severities kind (reports d packets)).getLast?.getD .none := by
  have hclear : m.statusClear.getSeverity kind = .none := by cases kind <;> rfl
  rw [statusAfter, getSeverity_foldl, hclear]

/-- What is read is the last report. -/
theorem notDowngraded_iff : NotDowngraded d m packets ↔
    ∀ kind, ∀ severity ∈ severities kind (reports d packets), Severity.WARNING.rank ≤ severity.rank →
      ∃ last ∈ (severities kind (reports d packets)).getLast?, severity.rank ≤ last.rank := by
  refine forall_congr' fun kind => forall₃_congr fun severity hmem hattack => ?_
  rw [showsAttack_iff, getSeverity_statusAfter]
  cases hlast : (severities kind (reports d packets)).getLast? with
  | none => rw [List.getLast?_eq_none_iff.mp hlast] at hmem; cases hmem
  | some last =>
      simp only [Option.getD_some, Option.mem_def, Option.some.injEq, exists_eq_left']
      exact and_iff_left_of_imp (le_trans hattack)

/-! ## The reports -/

theorem severities_append {kind : Kind} {l l' : List (Kind × Severity)} :
    severities kind (l ++ l') = severities kind l ++ severities kind l' := by
  simp [severities]

theorem severities_arpReports_dns {packet : Packet} : severities .dns (arpReports packet) = [] := by
  unfold arpReports
  split_ifs <;> rfl

/-- What a packet adds to the DNS reports. -/
theorem severities_analyzePacket_dns {packet : Packet} : severities .dns (analyzePacket packet d).2 =
    if isDnsPacket packet then (d.processPacket packet).2.toList else [] := by
  unfold analyzePacket
  split_ifs
  · rw [severities_append, severities_arpReports_dns, List.nil_append]
    simp [severities, List.filter_map, Function.comp_def]
  · exact severities_arpReports_dns

theorem severities_analyzePacket_arp {packet : Packet} :
    severities .arp (analyzePacket packet d).2 = severities .arp (arpReports packet) := by
  unfold analyzePacket
  split_ifs
  · rw [severities_append]
    simp [severities, List.filter_map, Function.comp_def]
  · rfl

/-- An ARP report is always critical. -/
theorem mem_severities_arp {severity : Severity} (h : severity ∈ severities .arp (reports d packets)) :
    severity = .CRITICAL := by
  induction packets generalizing d with
  | nil => cases h
  | cons packet packets ih =>
      rw [reports, severities_append, List.mem_append] at h
      rcases h with h | h
      · rw [severities_analyzePacket_arp, arpReports] at h
        split_ifs at h
        · simpa [severities] using h
        · cases h
      · exact ih h

/-- The severity of a response by the checks that it fails. -/
def severityOf (failedChecks : Nat) : Severity := (DnsSpoofingDetector.logResult failedChecks).getD .none

theorem toList_processPacket {packet : Packet} : (d.processPacket packet).2.toList =
    (if packet.isResponse then [d.failedChecks packet] else []).map severityOf := by
  cases hresponse : packet.isResponse with
  | false => simp [DnsSpoofingDetector.processPacket_not_response hresponse]
  | true =>
      have hsome : DnsSpoofingDetector.logResult (d.failedChecks packet) = some (severityOf (d.failedChecks packet)) := by
        have hle : d.failedChecks packet ≤ 3 := failedChecks_le
        revert hle
        generalize d.failedChecks packet = n
        intro hle
        interval_cases n <;> rfl
      simp [(DnsSpoofingDetector.processPacket_response hresponse).2, hsome]

theorem severities_dns : severities .dns (reports d packets) = (responseChecks d packets).map severityOf := by
  induction packets generalizing d with
  | nil => rfl
  | cons packet packets ih =>
      rw [reports, responseChecks, severities_append, List.map_append, ih]
      congr 1
      rw [severities_analyzePacket_dns, toList_processPacket]
      cases isDnsPacket packet <;> simp

theorem responseChecks_le {n : Nat} (h : n ∈ responseChecks d packets) : n ≤ 3 := by
  induction packets generalizing d with
  | nil => cases h
  | cons packet packets ih =>
      rw [responseChecks, List.mem_append] at h
      rcases h with h | h
      · split_ifs at h
        · rw [List.mem_singleton.mp h]; exact failedChecks_le
        · cases h
      · exact ih h

theorem rank_severityOf {n : Nat} (h : n ≤ 3) : (severityOf n).rank = max 1 n := by
  interval_cases n <;> decide

/-- For all packets of a session, from whatever the detector has seen before: the completion page reads no less than
any attack that was reported, and shows it, exactly when the last DNS response fails as many checks as each one that
fails two or three. -/
theorem verdict_kept_iff (d : DnsSpoofingDetector) (m : SpoofingDetectingStatusManager) (packets : List Packet) :
    NotDowngraded d m packets ↔ WorstLast (responseChecks d packets) := by
  rw [notDowngraded_iff]
  constructor
  · intro h n hn hattack
    have hrank := rank_severityOf (responseChecks_le hn)
    have hmem : severityOf n ∈ severities .dns (reports d packets) := by
      rw [severities_dns]
      exact List.mem_map_of_mem hn
    obtain ⟨last, hlast, hle⟩ := h .dns (severityOf n) hmem (by rw [hrank]; exact le_trans hattack (le_max_right 1 n))
    rw [severities_dns, List.getLast?_map] at hlast
    obtain ⟨final, hfinal, rfl⟩ := Option.map_eq_some_iff.mp hlast
    refine ⟨final, hfinal, ?_⟩
    rw [hrank, rank_severityOf (responseChecks_le (List.mem_of_getLast? hfinal))] at hle
    omega
  · intro h kind severity hmem hattack
    cases kind with
    | arp =>
        cases hlast : (severities .arp (reports d packets)).getLast? with
        | none => rw [List.getLast?_eq_none_iff.mp hlast] at hmem; cases hmem
        | some last =>
            refine ⟨last, rfl, ?_⟩
            rw [mem_severities_arp hmem, mem_severities_arp (List.mem_of_getLast? hlast)]
    | dns =>
        rw [severities_dns] at hmem ⊢
        obtain ⟨n, hn, rfl⟩ := List.mem_map.mp hmem
        have hrank := rank_severityOf (responseChecks_le hn)
        rw [hrank] at hattack
        have htwo : 2 ≤ n := by simp only [Severity.rank] at hattack; omega
        obtain ⟨final, hfinal, hle⟩ := h n hn htwo
        refine ⟨severityOf final, by rw [List.getLast?_map, hfinal]; rfl, ?_⟩
        rw [hrank, rank_severityOf (responseChecks_le (List.mem_of_getLast? hfinal))]
        omega

/-- A response that is not asked for is reported, then a good one from a listed server is: the page shows no attack. -/
theorem warning_downgraded :
    let packets := [ipv4Packet 56 [168, 126, 63, 1] [10, 0, 0, 2] [0, 53, 200, 0] [1, 2] [0x81, 0x80],
      ipv4Packet 56 [8, 8, 8, 8] [10, 0, 0, 2] [0, 53, 200, 0] [3, 4] [0x81, 0x80]]
    severities .dns (reports {} packets) = [.WARNING, .OK] ∧ showsAttack (statusAfter {} {} packets) .dns = false ∧
      ¬ NotDowngraded {} {} packets := by
  intro packets
  have hhidden : showsAttack (statusAfter {} {} packets) .dns = false := by decide
  refine ⟨by decide, hhidden, fun hkept => ?_⟩
  have hshown := (hkept .dns .WARNING (by decide) (by decide)).2
  rw [hhidden] at hshown
  cases hshown

end AllInSafe.Detection
