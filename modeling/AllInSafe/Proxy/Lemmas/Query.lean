import AllInSafe.Proxy.Model
import AllInSafe.Config.Lemmas.Decimal
import AllInSafe.Library.Positions

/-! Queries that are split again, and the connection that they name. -/

namespace AllInSafe.Proxy
open AllInSafe.Library AllInSafe.Config

theorem splitLimit_append {sep : Char} {limit : Nat} {s rest : Str} (h : ∀ c ∈ s, c ≠ sep) :
    splitLimit sep (limit + 1) (s ++ sep :: rest) = s :: splitLimit sep limit rest := by
  have hall : ∀ c ∈ s, (!decide (c = sep)) = true := by simpa using h
  simp [splitLimit, List.takeWhile_append_of_pos hall, List.dropWhile_append_of_pos hall]

theorem comma_not_mem_decimal (n : Nat) : ∀ c ∈ decimal n, c ≠ ',' := by
  rintro c hc rfl
  have hdigit := isDigit_of_mem_decimal hc
  simp at hdigit

theorem splitLimit_query (current : Nat) (udp : Bool) (remote : Str) :
    (splitLimit ',' 2 (query current udp remote))[0]? = some (decimal (current + 1)) := by
  have hquery : query current udp remote =
      decimal (current + 1) ++ ',' :: ((if udp then "UDP".toList else "TCP".toList) ++ ',' :: remote) := by
    cases udp <;> simp [query]
  rw [hquery, splitLimit_append (comma_not_mem_decimal (current + 1))]
  simp

/-- A query names the connection at its place in the array of the profile. -/
theorem processProxyCMD_query {np : VpnProfile} {current : Nat} {connection : Connection}
    (hconnection : np.mConnections[current]? = some connection) (hlength : np.mConnections.length < 2 ^ 31)
    (detected : Option (Str × Int)) (udp : Bool) (remote : Str) :
    processProxyCMD (some np) detected (query current udp remote) =
      .ok (some current, replyTo true detected (splitLimit ',' 2 (query current udp remote)) (.ofConnection connection)) := by
  obtain ⟨hlt, hat⟩ := List.getElem?_eq_some_iff.mp hconnection
  have hnonneg : ¬ (current : Int) < 0 := by omega
  have hget : Config.get (splitLimit ',' 2 (query current udp remote)) 0 = .ok (decimal (current + 1)) := by
    simp [Config.get, splitLimit_query]
  have hparse : parseInt (decimal (current + 1)) = .ok ((current + 1 : Nat) : Int) := by
    apply parseInteger_decimal
    simp only [Nat.add_one_sub_one]
    omega
  have hwrap : wrap 32 (((current + 1 : Nat) : Int) - 1) = current := by
    simp only [wrap]
    rw [Int.bmod_eq_of_le] <;> omega
  simp only [processProxyCMD, hget, hparse, hwrap, bind, Except.bind, pure, Except.pure]
  simp [hlt, hnonneg, hat]

theorem mem_writtenConnections {np : VpnProfile} {e : Nat × Connection} (h : e ∈ np.writtenConnections) :
    np.mConnections[e.1]? = some e.2 := by
  by_cases hlength : np.mConnections.length = 1
  · obtain ⟨conn, hconns⟩ := List.length_eq_one_iff.mp hlength
    obtain rfl : e = (0, conn) := by simpa [VpnProfile.writtenConnections, hconns] using h
    simp [hconns]
  · rw [VpnProfile.writtenConnections_many hlength] at h
    exact (mem_kept.mp h).1

theorem ConnectionList.perm {np : VpnProfile} {l : List (Nat × Connection)} (h : ConnectionList np l) :
    l.Perm np.writtenConnections := by
  unfold ConnectionList at h
  split at h
  case isTrue => exact h
  case isFalse => rw [h]

/-- OpenVPN has no more entries than the profile has connections. -/
theorem ConnectionList.lt_length {np : VpnProfile} {l : List (Nat × Connection)} (h : ConnectionList np l)
    {current : Nat} {entry : Nat × Connection} (hentry : l[current]? = some entry) :
    current < np.mConnections.length := by
  obtain ⟨hlt, _⟩ := List.getElem?_eq_some_iff.mp hentry
  rw [h.perm.length_eq] at hlt
  by_cases hlength : np.mConnections.length = 1
  · obtain ⟨conn, hconns⟩ := List.length_eq_one_iff.mp hlength
    simpa [VpnProfile.writtenConnections, hconns] using hlt
  · rw [VpnProfile.writtenConnections_many hlength] at hlt
    exact Nat.lt_of_lt_of_le hlt (length_kept_le (p := fun c : Connection => c.mEnabled))

/-- The answers are right exactly when every entry is at the place of its connection. -/
theorem answersForEntries_iff {np : VpnProfile} {l : List (Nat × Connection)} (h : ConnectionList np l)
    (hlength : np.mConnections.length < 2 ^ 31) : AnswersForEntries np l ↔ InPlace l := by
  constructor
  · intro hall current entry hentry
    have hanswer := hall current entry hentry none false []
    have hconnection := List.getElem?_eq_getElem (h.lt_length hentry)
    rw [processProxyCMD_query hconnection hlength] at hanswer
    simp only [Except.ok.injEq, Prod.mk.injEq, Option.some.injEq] at hanswer
    exact hanswer.1.symm
  · intro hplace current entry hentry detected udp remote
    have hmem : entry ∈ np.writtenConnections := h.perm.mem_iff.mp (List.mem_of_getElem? hentry)
    have hconnection := mem_writtenConnections hmem
    rw [hplace current entry hentry] at hconnection ⊢
    exact processProxyCMD_query hconnection hlength detected udp remote

end AllInSafe.Proxy
