import AllInSafe.Detection.Buffers

/-!
# The analysis of a packet never throws
-/

namespace AllInSafe.Detection.Buffered
open AllInSafe.Library AllInSafe.Config ByteBuffer

variable {packet : Packet} {b : ByteBuffer} {i n : Nat} {d : DnsSpoofingDetector}

/-! ## Reads that fail -/

theorem getAt_bind_error {α : Type} {f : Nat → Read α} (h : ∀ v, i < b.bytes.length → ∃ e, f v b = .error e b) :
    ∃ e, (getAt i >>= f) b = .error e b := by
  by_cases hi : i < b.bytes.length
  · rw [bind_ok (getAt_ok hi)]
    exact h _ hi
  · exact ⟨_, bind_error (getAt_error hi)⟩

theorem getShortAt_bind_error {α : Type} {f : Nat → Read α}
    (h : ∀ v, i + 2 ≤ b.bytes.length → ∃ e, f v b = .error e b) : ∃ e, (getShortAt i >>= f) b = .error e b := by
  by_cases hi : i + 2 ≤ b.bytes.length
  · rw [bind_ok (getShortAt_ok hi)]
    exact h _ hi
  · exact ⟨_, bind_error (getShortAt_error hi)⟩

/-! ## The kind of a packet -/

theorem isArpPacket_eq (packet : Packet) :
    isArpPacket (wrap packet) = .ok (Detection.isArpPacket packet) (wrap packet) := by
  rw [isArpPacket, Detection.isArpPacket]
  by_cases h : 14 ≤ packet.length
  · simp only [h, decide_true, Bool.true_and]
    refine tryCatch_ok ?_
    rw [bind_ok rewind_ok, bind_ok (getShortAt_ok h)]
    rfl
  · simp only [h, decide_false, Bool.false_and]
    refine (tryCatch_error (t := wrap packet) (e := .indexOutOfBounds) ?_).trans rfl
    rw [bind_ok rewind_ok]
    exact bind_error (getShortAt_error h)

/-- The reads of `isDnsPacket` from the offsets of one version. -/
def readPorts (protocol src dst : Nat) : Read Bool := do
  let protocol ← getAt protocol
  let srcPort ← getShortAt src
  let dstPort ← getShortAt dst
  return protocol = 17 && (srcPort = 53 || dstPort = 53)

/-- The last read fails in a packet that is too short. -/
theorem readPorts_error {protocol src dst : Nat} (h : packet.length < dst + 2) :
    ∃ e, readPorts protocol src dst (wrap packet) = .error e (wrap packet) := by
  refine getAt_bind_error fun v _ => getShortAt_bind_error fun w _ => getShortAt_bind_error fun u hu => ?_
  exact absurd hu (Nat.not_le.mpr h)

theorem readPorts_ok {protocol src dst : Nat} (h : dst + 2 ≤ packet.length) (hprotocol : protocol < dst)
    (hsrc : src ≤ dst) : readPorts protocol src dst (wrap packet) =
      .ok (packet.byte protocol = 17 && (packet.short src = 53 || packet.short dst = 53)) (wrap packet) := by
  have hlength : dst + 2 ≤ (wrap packet).bytes.length := h
  rw [readPorts, bind_ok (getAt_ok (by omega)), bind_ok (getShortAt_ok (by omega)), bind_ok (getShortAt_ok hlength)]
  rfl

/-- Reads that come down to those of one version are `false` in a packet that is too short for them. -/
theorem tryPorts_eq {protocol src dst : Nat} {reads : Read Bool}
    (hreads : reads (wrap packet) = readPorts protocol src dst (wrap packet)) (hprotocol : protocol < dst)
    (hsrc : src ≤ dst) : tryCatch reads (fun _ => return false) (wrap packet) =
      .ok (dst + 2 ≤ packet.length && packet.byte protocol = 17 &&
        (packet.short src = 53 || packet.short dst = 53)) (wrap packet) := by
  by_cases hlong : dst + 2 ≤ packet.length
  · rw [readPorts_ok hlong hprotocol hsrc] at hreads
    simpa only [hlong, decide_true, Bool.true_and] using tryCatch_ok hreads
  · obtain ⟨e, he⟩ := @readPorts_error packet protocol src dst (by omega)
    rw [he] at hreads
    simp only [hlong, decide_false, Bool.false_and]
    exact (tryCatch_error hreads).trans rfl

theorem isDnsPacket_eq (packet : Packet) :
    isDnsPacket (wrap packet) = .ok (Detection.isDnsPacket packet) (wrap packet) := by
  by_cases hempty : 0 < packet.length
  · have hversion : byteOf (wrap packet).bytes 0 / 16 = packet.version := rfl
    have hrewind : rewind (wrap packet) = .ok () (wrap packet) := rfl
    rw [isDnsPacket, Detection.isDnsPacket]
    by_cases h4 : packet.version = 4
    · rw [if_pos h4]
      refine @tryPorts_eq packet 9 20 22 _ ?_ (by decide) (by decide)
      rw [bind_ok hrewind, bind_ok (getAt_ok hempty)]
      simp only [hversion, h4, if_true]
      rfl
    · rw [if_neg h4]
      refine @tryPorts_eq packet 6 40 42 _ ?_ (by decide) (by decide)
      rw [bind_ok hrewind, bind_ok (getAt_ok hempty)]
      simp only [hversion, h4, if_false]
      rfl
  · obtain rfl : packet = [] := List.eq_nil_of_length_eq_zero (by omega)
    rfl

/-! ## The DNS detector -/

theorem sourceIp_ok (h : 40 ≤ packet.length) :
    ∃ b, sourceIp packet.version (wrap packet) = .ok packet.sourceIp b ∧ b.bytes = packet := by
  rw [sourceIp, Packet.sourceIp]
  split_ifs with hversion
  · have hposition : 12 ≤ (wrap packet).bytes.length := le_trans (by decide) h
    have hbytes : 12 + 1 * 4 ≤ packet.length := le_trans (by decide) h
    rw [bind_ok (setPosition_ok hposition), bind_ok (mapM_ok (fun b h => getByte_ok h) (List.range 4) hbytes)]
    refine ⟨(wrap packet).moved (12 + 1 * 4) hbytes, ?_, rfl⟩
    simp [pure, EStateM.pure, Packet.dotted, byteOf, Packet.byte, Function.comp_def]
  · have hposition : 8 ≤ (wrap packet).bytes.length := le_trans (by decide) h
    have hshorts : 8 + 2 * 8 ≤ packet.length := le_trans (by decide) h
    rw [bind_ok (setPosition_ok hposition), bind_ok (mapM_ok (fun b h => getShort_ok h) (List.range 8) hshorts)]
    refine ⟨(wrap packet).moved (8 + 2 * 8) hshorts, ?_, rfl⟩
    simp [pure, EStateM.pure, shortOf, byteOf, Packet.short, Packet.byte, Function.comp_def]

theorem ttl_ok (hb : b.bytes = packet) (h : 40 ≤ packet.length) :
    ∃ b', ttl packet.version b = .ok (packet.ttl : Int) b' := by
  have hposition : (if packet.version = 4 then 8 else 7) + 1 ≤ b.bytes.length := by
    rw [hb]
    split_ifs <;> omega
  refine ⟨b.moved ((if packet.version = 4 then 8 else 7) + 1) hposition, ?_⟩
  rw [ttl]
  refine tryCatch_ok ?_
  rw [bind_ok (setPosition_ok (Nat.le_of_succ_le hposition)), bind_ok (getByte_ok hposition)]
  rw [Packet.ttl]
  split_ifs <;> simp [pure, EStateM.pure, byteOf, Packet.byte, moved, hb]

theorem serverChecks_eq (expectedServer : Option Str) (sourceIp : Str) :
    serverChecks expectedServer sourceIp = if expectedServer ≠ some sourceIp then 1 else 0 := by
  cases expectedServer <;> simp [serverChecks]

theorem processPacket_eq (packet : Packet) (d : DnsSpoofingDetector) :
    ∃ b, processPacket d (wrap packet) = .ok (d.processPacket packet) b := by
  have hremaining : (wrap packet).remaining = packet.length := rfl
  have hget : (get : Read ByteBuffer) (wrap packet) = .ok (wrap packet) (wrap packet) := rfl
  have hversion : byteOf (wrap packet).bytes 0 / 16 = packet.version := rfl
  have hstart : (if packet.version = 4 then 20 else 40) + 8 = packet.dnsPayloadStart := rfl
  rw [processPacket, bind_ok hget, DnsSpoofingDetector.processPacket, hremaining]
  by_cases hshort : packet.length < 40
  · rw [if_pos hshort, if_pos hshort]
    exact ⟨_, rfl⟩
  · have hbyte : 0 < (wrap packet).bytes.length := by
      change 0 < packet.length
      omega
    rw [if_neg hshort, if_neg hshort, bind_ok (getAt_ok hbyte)]
    simp only [hversion, hstart]
    rw [bind_ok hget, hremaining]
    by_cases hlong : packet.length < packet.dnsPayloadStart + 12
    · rw [if_pos hlong, if_pos hlong]
      exact ⟨_, rfl⟩
    · rw [if_neg hlong, if_neg hlong]
      obtain ⟨b₁, hsource, hbytes⟩ := sourceIp_ok (Nat.not_lt.mp hshort)
      have hposition : packet.dnsPayloadStart ≤ b₁.bytes.length := by
        rw [hbytes]
        omega
      rw [bind_ok hsource, bind_ok (setPosition_ok hposition)]
      have htxid : packet.dnsPayloadStart + 2 ≤ b₁.bytes.length := by
        rw [hbytes]
        omega
      have hflags : packet.dnsPayloadStart + 2 + 2 ≤ b₁.bytes.length := by
        rw [hbytes]
        omega
      rw [bind_ok (getShort_ok htxid), bind_ok (getShort_ok hflags)]
      simp only [moved_bytes, moved_position, hbytes]
      have htxidOf : shortOf packet packet.dnsPayloadStart = packet.txid := rfl
      have hflagsOf : shortOf packet (packet.dnsPayloadStart + 2) = packet.flags := rfl
      rw [htxidOf, hflagsOf]
      by_cases hflag : packet.flags &&& 0x8000 = 0
      · have hquery : (!packet.responseFlag) = true := by simp [Packet.responseFlag, hflag]
        rw [if_pos hflag, if_pos hquery]
        exact ⟨((b₁.moved _ hposition).moved _ htxid).moved _ hflags, by split_ifs <;> rfl⟩
      · have hresponse : ¬ (!packet.responseFlag) = true := by simp [Packet.responseFlag, hflag]
        rw [if_neg hflag, if_neg hresponse]
        obtain ⟨b₂, httl⟩ := @ttl_ok packet (((b₁.moved _ hposition).moved _ htxid).moved _ hflags) hbytes
          (Nat.not_lt.mp hshort)
        refine ⟨b₂, ?_⟩
        rw [bind_ok httl]
        simp [pure, EStateM.pure, serverChecks_eq, DnsSpoofingDetector.failedChecks]

/-! ## The ARP detector -/

theorem copyOfRange_ok (h : i + n ≤ packet.length) :
    copyOfRange packet i (i + n) = .ok ((packet.take (i + n)).drop i) := if_pos h

theorem map_copyOfRange {α : Type} (f : Nat → α) (h : i + n ≤ packet.length) :
    ((packet.take (i + n)).drop i).map (fun b => f b.toNat) = (List.range n).map fun k => f (packet.byte (i + k)) := by
  have hlength : ((packet.take (i + n)).drop i).length = n := by
    rw [List.length_drop, List.length_take]
    omega
  refine List.ext_getElem (by rw [List.length_map, hlength]; simp) fun k hk hk' => ?_
  rw [List.length_map, hlength] at hk
  have hlt : i + k < packet.length := by omega
  have hbyte : packet[i + k]? = some packet[i + k] := List.getElem?_eq_getElem hlt
  simp [Packet.byte, hbyte]

theorem fromPacket_eq (packet : Packet) : fromPacket packet = ArpData.fromPacket packet := by
  rw [fromPacket, ArpData.fromPacket]
  by_cases h : packet.length < 42
  · rw [if_pos h, if_pos h]
    rfl
  · have hhost : ∀ i, i + 4 ≤ packet.length →
        hostAddress ((packet.take (i + 4)).drop i) = .ok (packet.dotted i) := by
      intro i hi
      rw [hostAddress, if_pos (by simp; omega), map_copyOfRange decimal hi, Packet.dotted]
    rw [if_neg h, if_neg h]
    have hsender := @copyOfRange_ok packet 28 4 (by omega)
    have hmac := @copyOfRange_ok packet 22 6 (by omega)
    have htarget := @copyOfRange_ok packet 38 4 (by omega)
    have htargetMac := @copyOfRange_ok packet 32 6 (by omega)
    simp only [Nat.reduceAdd] at hsender hmac htarget htargetMac
    have hsenderIp := hhost 28 (by omega)
    have htargetIp := hhost 38 (by omega)
    simp only [Nat.reduceAdd] at hsenderIp htargetIp
    simp only [hsender, hmac, htarget, htargetMac, hsenderIp, htargetIp, bind, Except.bind, pure, Except.pure]
    rw [macText, @map_copyOfRange packet 22 6 _ Packet.hexByte (by omega)]

theorem arpReports_eq (packet : Packet) :
    (if Detection.isArpPacket packet then arpReports packet else .ok []) = .ok (Detection.arpReports packet) := by
  rw [arpReports, Detection.arpReports, fromPacket_eq]
  cases harp : Detection.isArpPacket packet with
  | false => rfl
  | true =>
      cases hdata : ArpData.fromPacket packet with
      | none => rfl
      | some arpData => cases hspoofed : arpData.isSpoofed <;> simp [hspoofed, reportSpoofed, Except.map]

/-! ## The manager -/

/-- What is read through the buffer is what stands in the packet. -/
theorem analyzePacket_eq (packet : Packet) (d : DnsSpoofingDetector) :
    analyzePacket packet d = .ok (Detection.analyzePacket packet d) := by
  have hreports := arpReports_eq packet
  rw [analyzePacket, isArpPacket_eq, Detection.analyzePacket]
  simp only [isDnsPacket_eq, bind, Except.bind]
  obtain ⟨b, hprocess⟩ := processPacket_eq packet d
  cases harp : Detection.isArpPacket packet with
  | false =>
      have hnone : Detection.arpReports packet = [] := by simpa [harp] using hreports.symm
      cases Detection.isDnsPacket packet with
      | false => simp [hnone]
      | true => simp [hprocess, hnone]
  | true =>
      have hsome : arpReports packet = .ok (Detection.arpReports packet) := by simpa [harp] using hreports
      cases Detection.isDnsPacket packet with
      | false => simp [hsome]
      | true => simp [hprocess, hsome]

/-- Whatever the bytes are and whatever the detector has seen, the analysis returns. -/
theorem analyzePacket_returns (packet : Packet) (d : DnsSpoofingDetector) :
    ∃ result, analyzePacket packet d = .ok result :=
  ⟨_, analyzePacket_eq packet d⟩

end AllInSafe.Detection.Buffered
