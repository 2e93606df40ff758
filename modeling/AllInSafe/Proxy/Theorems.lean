import AllInSafe.Proxy.Lemmas.Query

/-!
# Proxies of the servers
-/

namespace AllInSafe.Proxy
open AllInSafe.Library AllInSafe.Config

/-- Every query of OpenVPN is answered with the proxy of its own connection exactly when no connection is left out in
front of a written one and the list was not put in another order. -/
theorem processProxyCMD_own_iff {np : VpnProfile} {l : List (Nat × Connection)} (h : ConnectionList np l)
    (hlength : np.mConnections.length < 2 ^ 31) :
    AnswersForEntries np l ↔ DisabledLast np.mConnections ∧ l = np.writtenConnections := by
  rw [answersForEntries_iff h hlength]
  by_cases hone : np.mConnections.length = 1
  · obtain ⟨conn, hconns⟩ := List.length_eq_one_iff.mp hone
    have hwritten : np.writtenConnections = [(0, conn)] := by simp [VpnProfile.writtenConnections, hconns]
    have hl : l = [(0, conn)] := by simpa [ConnectionList, hone, hwritten] using h
    have hplace : InPlace [(0, conn)] := by
      intro k e hk
      obtain ⟨rfl, rfl⟩ : k = 0 ∧ e = (0, conn) := by
        cases k with
        | zero => simpa using hk.symm
        | succ k => simp at hk
      rfl
    simp [DisabledLast, hl, hwritten, hplace, hone]
  · have hwritten := VpnProfile.writtenConnections_many hone
    have hlast : DisabledLast np.mConnections ↔ InPlace np.writtenConnections := by
      rw [hwritten, DisabledLast, or_iff_right hone]
      exact inPlace_kept_iff.symm
    rw [hlast]
    constructor
    · intro hplace
      have hsorted : np.writtenConnections.Pairwise fun a b => a.1 < b.1 := by rw [hwritten]; exact kept_sorted
      have heq := eq_of_perm_sorted h.perm hplace.sorted hsorted
      exact ⟨heq ▸ hplace, heq⟩
    · rintro ⟨hplace, rfl⟩
      exact hplace

/-- A profile with two servers behind proxies of their own. -/
def twoProxies (firstEnabled : Bool) : VpnProfile where
  mName := "work".toList
  mConnections := [{ mProxyType := .HTTP, mProxyName := "a".toList, mUseProxyAuth := true, mEnabled := firstEnabled },
    { mProxyType := .HTTP, mProxyName := "b".toList, mUseProxyAuth := true }]

theorem processProxyCMD_own_iff_enabled :
    AnswersForEntries (twoProxies true) (twoProxies true).writtenConnections := by
  have hlist : ConnectionList (twoProxies true) (twoProxies true).writtenConnections := by decide
  exact (processProxyCMD_own_iff hlist (by decide)).mpr ⟨by decide, rfl⟩

/-- With a disabled connection in front, the query for the only entry names the disabled connection. -/
theorem processProxyCMD_other :
    ConnectionList (twoProxies false) [(1, { mProxyType := .HTTP, mProxyName := "b".toList, mUseProxyAuth := true })] ∧
    processProxyCMD (some (twoProxies false)) none (query 0 false "vpn.example.com".toList) =
      .ok (some 0, .managmentCommand "proxy HTTP a 8080 auto\n".toList) ∧
    ¬ AnswersForEntries (twoProxies false)
      [(1, { mProxyType := .HTTP, mProxyName := "b".toList, mUseProxyAuth := true })] := by
  refine ⟨by decide, by decide, ?_⟩
  intro h
  have hanswer := h 0 _ rfl none false []
  revert hanswer
  decide

end AllInSafe.Proxy
