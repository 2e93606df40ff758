import AllInSafe.Restrictions.Lemmas.Keys

/-! The entries for one UUID converge exactly where they are settled. -/

namespace AllInSafe.Restrictions
open AllInSafe.Library AllInSafe.Config

variable {pf : Platform} {q q' : Option ManagedProfile} {es : List ProfileBundle}

/-! ## Settled entries converge -/

theorem Settled.finalAlias (h : Settled pf q es) {v w : ProfileBundle} (hv : v ∈ es) (hw : w ∈ es)
    (hfinal : FinalHash pf q es (v.hash pf)) (hhash : w.hash pf = v.hash pf) :
    withAlias w.certificate_alias = withAlias v.certificate_alias :=
  withAlias_congr (h.certAlias v hv w hw hfinal hhash).symm

/-- No entry is accepted: the profile keeps its hash, and the entries with this hash have one alias. -/
theorem Settled.converged_of_none (h : Settled pf q es) (hnone : ∀ v ∈ es, v.accepted pf = none) :
    ConvergedKey pf q es := by
  have haccepted : ∀ v ∈ es, (v.accepted pf).isSome → HasHash (v.hash pf) q := by
    intro v hv hacc
    simp [hnone v hv] at hacc
  have hthrows : ∀ v ∈ es, v.throws pf = true → HasHash (v.hash pf) q := by
    intro t ht hthrow
    obtain ⟨pre, post, hes⟩ := List.append_of_mem ht
    rcases (h.throws pre t post hes hthrow).2 with ⟨v, hv, hacc⟩ | hhash
    · simp [hnone v (by simp [hes, hv])] at hacc
    · exact hhash
  obtain ⟨q', hrun⟩ := exists_applyAllToKey haccepted hthrows
  have hrest := applyAllToKey_rest haccepted hrun
  refine ⟨q', hrun, ?_, ?_⟩
  · intro p hp vpn hacc
    simp [hnone p hp] at hacc
  · intro p hp
    unfold Quiet
    split_ifs with hhash
    · intro vp' hvp'
      have hhash' := (HasHash.congr hrest).mp hhash
      have halias : ∀ v ∈ es, HasHash (v.hash pf) q → v.certificate_alias.getD [] = p.certificate_alias.getD [] := by
        intro v hv hvhash
        exact (h.certAlias p hp v hv (Or.inr ⟨hnone, hhash'⟩) (hvhash.unique hhash')).symm
      obtain ⟨_, _, hkept⟩ := applyAllToKey_keptBy haccepted halias hrun hvp'
      exact hkept.aliased (Or.inl ⟨p, hp, hhash'⟩)
    · refine ⟨?_, hnone p hp⟩
      by_contra hthrow
      simp only [Bool.not_eq_false] at hthrow
      exact hhash ((HasHash.congr hrest).mpr (hthrows p hp hthrow))

/-- The profile behind the first accepted entry carries all accepted entries. -/
theorem Settled.first (h : Settled pf q es) {pre post : List ProfileBundle} {w : ProfileBundle} {vpn : VpnProfile}
    (hes : es = pre ++ w :: post) (hw : w.accepted pf = some vpn) (hpre : ∀ v ∈ pre, v.accepted pf = none) :
    ∃ vp, applyAllToKey pf (pre ++ [w]) q = some (some vp) ∧ vp.importedProfileHash = some (w.hash pf) ∧
      ∀ v ∈ es, ∀ vpn', v.accepted pf = some vpn' → Carries v vpn' vp := by
  have hmem : w ∈ es := by simp [hes]
  have hwsome : (w.accepted pf).isSome := by simp [hw]
  have haccepted : ∀ v ∈ pre, (v.accepted pf).isSome → HasHash (v.hash pf) q := by
    intro v hv hacc
    simp [hpre v hv] at hacc
  have hthrows : ∀ v ∈ pre, v.throws pf = true → HasHash (v.hash pf) q := by
    intro t ht hthrow
    obtain ⟨pre₁, post₁, hsplit⟩ := List.append_of_mem ht
    have hes' : es = pre₁ ++ t :: (post₁ ++ w :: post) := by simp [hes, hsplit]
    rcases (h.throws pre₁ t _ hes' hthrow).2 with ⟨v, hv, hacc⟩ | hhash
    · simp [hpre v (by simp [hsplit, hv])] at hacc
    · exact hhash
  obtain ⟨q₁, hrun⟩ := exists_applyAllToKey haccepted hthrows
  have hrest := applyAllToKey_rest haccepted hrun
  have hcarries : ∀ vp : ManagedProfile, vp.vpn = w.target vpn → vp.mAlias = some (w.certificate_alias.getD []) →
      (∀ v ∈ es, (v.accepted pf).isSome → v.apps ≠ ∅ →
        vp.mAllowedAppsVpn = v.apps ∧ vp.mAllowedAppsVpnAreDisallowed = false) →
      ∀ v ∈ es, ∀ vpn', v.accepted pf = some vpn' → Carries v vpn' vp := by
    intro vp hvpn halias happs v hv vpn' hacc
    have hvsome : (v.accepted pf).isSome := by simp [hacc]
    refine ⟨hvpn.trans (h.target w hmem v hv _ _ hw hacc), halias.trans ?_, happs v hv hvsome⟩
    rw [h.certAlias w hmem v hv (Or.inl ⟨w, hmem, hwsome, rfl⟩) (h.hash v hv w hmem hvsome hwsome)]
  by_cases hhash : HasHash (w.hash pf) q
  · have hhash₁ := (HasHash.congr hrest).mpr hhash
    obtain ⟨vp₁, rfl⟩ : ∃ vp₁, q₁ = some vp₁ := by
      cases q₁ with
      | none => simp [HasHash] at hhash₁
      | some vp₁ => exact ⟨vp₁, rfl⟩
    have halias : ∀ v ∈ pre, HasHash (v.hash pf) q → v.certificate_alias.getD [] = w.certificate_alias.getD [] := by
      intro v hv hvhash
      exact (h.certAlias w hmem v (by simp [hes, hv]) (Or.inl ⟨w, hmem, hwsome, rfl⟩) (hvhash.unique hhash)).symm
    obtain ⟨vp₀, hvp₀, hkept⟩ := applyAllToKey_keptBy haccepted halias hrun rfl
    have hvp₀hash : vp₀.importedProfileHash = some (w.hash pf) := by simpa [HasHash, hvp₀] using hhash
    have hsame : rest vp₁ = rest vp₀ := by simpa [hvp₀] using hrest
    refine ⟨(addCertificateAlias w.certificate_alias ⟨vp₁, []⟩).profile, ?_, ?_, ?_⟩
    · refine applyAllToKey_append.mpr ⟨_, hrun, applyAllToKey_cons.mpr ⟨_, ?_, applyAllToKey_nil⟩⟩
      simp [applyToKey, hhash₁]
    · have hrest' : rest (addCertificateAlias w.certificate_alias ⟨vp₁, []⟩).profile = rest vp₀ :=
        addCertificateAlias_rest.trans hsame
      exact (congrArg Prod.fst hrest').trans hvp₀hash
    · apply hcarries
      · rw [addCertificateAlias_vpn, hkept.vpn]
        exact (h.stored w hmem vpn hw vp₀ hvp₀ hvp₀hash).1
      · exact addCertificateAlias_mAlias
      · intro v hv hvsome hvapps
        obtain ⟨vpn', hacc⟩ := Option.isSome_iff_exists.mp hvsome
        have hvhash : vp₀.importedProfileHash = some (v.hash pf) := by
          rw [hvp₀hash, h.hash w hmem v hv hwsome hvsome]
        have hstored := (h.stored v hv vpn' hacc vp₀ hvp₀ hvhash).2 hvapps
        simp only [rest, Prod.mk.injEq] at hsame
        simp [hsame, hstored]
  · have hhash₁ : ¬ HasHash (w.hash pf) q₁ := fun hq₁ => hhash ((HasHash.congr hrest).mp hq₁)
    have hthrow : w.throws pf = false := by
      by_contra hthrow
      simp only [Bool.not_eq_false] at hthrow
      simp [accepted_of_throws hthrow] at hw
    refine ⟨freshProfile pf w vpn q₁, ?_, freshProfile_hash, ?_⟩
    · refine applyAllToKey_append.mpr ⟨_, hrun, applyAllToKey_cons.mpr ⟨_, ?_, applyAllToKey_nil⟩⟩
      simp [applyToKey, hhash₁, hthrow, hw]
    · apply hcarries _ freshProfile_vpn freshProfile_mAlias
      intro v hv hvsome hvapps
      have heq := h.apps pre w post hes hwsome hpre hhash v hv hvsome hvapps
      rw [heq] at hvapps ⊢
      exact freshProfile_apps hvapps

theorem Settled.converged (h : Settled pf q es) : ConvergedKey pf q es := by
  cases hfind : es.find? fun v => (v.accepted pf).isSome with
  | none =>
      apply h.converged_of_none
      intro v hv
      simpa using List.find?_eq_none.mp hfind v hv
  | some w =>
      obtain ⟨hw, pre, post, hes, hpre⟩ := List.find?_eq_some_iff_append.mp hfind
      obtain ⟨vpn, hvpn⟩ := Option.isSome_iff_exists.mp hw
      have hmem : w ∈ es := by simp [hes]
      obtain ⟨vp, hrun, hhash, hcarries⟩ := h.first hes hvpn fun v hv => by simpa using hpre v hv
      have hquiet : ∀ p ∈ es, Quiet pf p (some vp) := by
        intro p hp
        unfold Quiet
        split_ifs with hphash
        · intro vp' hvp'
          cases hvp'
          have hsame : p.hash pf = w.hash pf := by
            apply Option.some.inj
            rw [← hhash]
            exact hphash.symm
          rw [h.finalAlias hmem hp (Or.inl ⟨w, hmem, hw, rfl⟩) hsame]
          exact (hcarries w hmem vpn hvpn).withAlias_eq
        · constructor
          · by_contra hthrow
            simp only [Bool.not_eq_false] at hthrow
            obtain ⟨pre', post', hsplit⟩ := List.append_of_mem hp
            have hsame := (h.throws pre' p post' hsplit hthrow).1 w hmem hw
            exact hphash (by rw [← hsame]; exact hhash)
          · by_contra hacc
            have hpsome : (p.accepted pf).isSome := Option.isSome_iff_ne_none.mpr hacc
            exact hphash (by rw [h.hash p hp w hmem hpsome hw]; exact hhash)
      refine ⟨some vp, ?_, fun p hp vpn hacc => ⟨vp, rfl, hcarries p hp vpn hacc⟩, hquiet⟩
      have hpost : applyAllToKey pf post (some vp) = some (some vp) := by
        apply applyAllToKey_of_quiet
        intro p hp
        exact hquiet p (by simp [hes, hp])
      have hsplit : es = (pre ++ [w]) ++ post := by simp [hes]
      rw [hsplit]
      exact applyAllToKey_append.mpr ⟨_, hrun, hpost⟩

/-! ## Entries that converge are settled -/

theorem Quiet.hasHash {p : ProfileBundle} (h : Quiet pf p q) (hacc : (p.accepted pf).isSome) : HasHash (p.hash pf) q := by
  unfold Quiet at h
  split_ifs at h with hhash
  · exact hhash
  · simp [h.2] at hacc

theorem Quiet.mAlias {p : ProfileBundle} {vp : ManagedProfile} (h : Quiet pf p q) (hhash : HasHash (p.hash pf) q)
    (hvp : q = some vp) : vp.mAlias = some (p.certificate_alias.getD []) := by
  rw [Quiet, if_pos hhash] at h
  exact (withAlias_eq_self_iff.mp (h vp hvp)).1

theorem HasHash.exists {hash : Str} (h : HasHash hash q) : ∃ vp, q = some vp ∧ vp.importedProfileHash = some hash :=
  Option.bind_eq_some_iff.mp h

section

variable (hrun : applyAllToKey pf es q = some q') (hquiet : ∀ p ∈ es, Quiet pf p q')
  (hcarries : ∀ p ∈ es, ∀ vpn, p.accepted pf = some vpn → ∃ vp, q' = some vp ∧ Carries p vpn vp)

include hquiet

theorem hash_of_quiet : ∀ v ∈ es, ∀ w ∈ es, (v.accepted pf).isSome → (w.accepted pf).isSome → v.hash pf = w.hash pf :=
  fun v hv w hw hvacc hwacc => ((hquiet v hv).hasHash hvacc).unique ((hquiet w hw).hasHash hwacc)

include hrun

theorem FinalHash.hasHash {hash : Str} (h : FinalHash pf q es hash) : HasHash hash q' := by
  rcases h with ⟨v, hv, hacc, rfl⟩ | ⟨hnone, hq⟩
  · exact (hquiet v hv).hasHash hacc
  · exact (HasHash.congr (applyAllToKey_rest_of_none hnone hrun)).mpr hq

theorem certAlias_of_quiet : ∀ v ∈ es, ∀ w ∈ es, FinalHash pf q es (v.hash pf) → w.hash pf = v.hash pf →
    v.certificate_alias.getD [] = w.certificate_alias.getD [] := by
  intro v hv w hw hvfinal hsame
  have hv' := hvfinal.hasHash hrun hquiet
  obtain ⟨vp, hvp, _⟩ := hv'.exists
  have hw' : HasHash (w.hash pf) q' := by rw [hsame]; exact hv'
  exact Option.some.inj (((hquiet v hv).mAlias hv' hvp).symm.trans ((hquiet w hw).mAlias hw' hvp))

/-- An entry that throws stands behind an accepted one, or the profile already had its hash. -/
theorem throws_of_quiet {pre post : List ProfileBundle} {t : ProfileBundle} (hes : es = pre ++ t :: post)
    (hthrow : t.throws pf = true) : (∀ v ∈ es, (v.accepted pf).isSome → v.hash pf = t.hash pf) ∧
      ((∃ v ∈ pre, (v.accepted pf).isSome) ∨ HasHash (t.hash pf) q) := by
  have ht' : HasHash (t.hash pf) q' := by
    have hq := hquiet t (by simp [hes])
    unfold Quiet at hq
    split_ifs at hq with hhash
    · exact hhash
    · simp [hthrow] at hq
  refine ⟨fun v hv hacc => ((hquiet v hv).hasHash hacc).unique ht', ?_⟩
  by_cases hacc : ∃ v ∈ pre, (v.accepted pf).isSome
  · exact Or.inl hacc
  · right
    rw [hes] at hrun
    obtain ⟨q₁, hrun₁, hrun₂⟩ := applyAllToKey_append.mp hrun
    obtain ⟨q₂, ht₂, _⟩ := applyAllToKey_cons.mp hrun₂
    have hnone : ∀ u ∈ pre, u.accepted pf = none := by
      intro u hu
      by_contra hu'
      exact hacc ⟨u, hu, Option.isSome_iff_ne_none.mpr hu'⟩
    apply (HasHash.congr (applyAllToKey_rest_of_none hnone hrun₁)).mp
    by_contra hne
    simp [applyToKey, hne, hthrow] at ht₂

include hcarries

/-- Where the profile already has the hash of an accepted entry, no entry makes it anew. -/
theorem stored_of_converged {v : ProfileBundle} (hv : v ∈ es) {vpn : VpnProfile} (hacc : v.accepted pf = some vpn)
    {vp : ManagedProfile} (hvp : q = some vp) (hvphash : vp.importedProfileHash = some (v.hash pf)) :
    (withAlias v.certificate_alias vp).vpn = v.target vpn ∧
      (v.apps ≠ ∅ → vp.mAllowedAppsVpn = v.apps ∧ vp.mAllowedAppsVpnAreDisallowed = false) := by
  have hvsome : (v.accepted pf).isSome := by simp [hacc]
  have hq : HasHash (v.hash pf) q := by simp [HasHash, hvp, hvphash]
  have haccepted : ∀ w ∈ es, (w.accepted pf).isSome → HasHash (w.hash pf) q := by
    intro w hw hwacc
    rw [hash_of_quiet hquiet w hw v hv hwacc hvsome]
    exact hq
  have haliases : ∀ w ∈ es, HasHash (w.hash pf) q → w.certificate_alias.getD [] = v.certificate_alias.getD [] := by
    intro w hw hwhash
    exact (certAlias_of_quiet hrun hquiet v hv w hw (Or.inl ⟨v, hv, hvsome, rfl⟩) (hwhash.unique hq)).symm
  obtain ⟨vp', hvp', hvc⟩ := hcarries v hv vpn hacc
  obtain ⟨vp₀, hvp₀, hkept⟩ := applyAllToKey_keptBy haccepted haliases hrun hvp'
  obtain rfl : vp = vp₀ := Option.some.inj (hvp.symm.trans hvp₀)
  have hrest : rest vp' = rest vp := by simpa [hvp, hvp'] using applyAllToKey_rest haccepted hrun
  constructor
  · rw [← hkept.vpn, hvc.withAlias_eq, hvc.vpn]
  · intro hvapps
    have happs := hvc.apps hvapps
    simp only [rest, Prod.mk.injEq] at hrest
    rw [← hrest.2.1, ← hrest.2.2]
    exact happs

/-- The first accepted entry makes a fresh profile, and the entries behind it keep its apps. -/
theorem apps_of_converged {pre post : List ProfileBundle} {w : ProfileBundle} (hes : es = pre ++ w :: post)
    (hw : (w.accepted pf).isSome) (hpre : ∀ v ∈ pre, v.accepted pf = none) (hne : ¬ HasHash (w.hash pf) q)
    {v : ProfileBundle} (hv : v ∈ es) (hvacc : (v.accepted pf).isSome) (hvapps : v.apps ≠ ∅) : v.apps = w.apps := by
  obtain ⟨vpnw, hvpnw⟩ := Option.isSome_iff_exists.mp hw
  obtain ⟨vpn, hacc⟩ := Option.isSome_iff_exists.mp hvacc
  have hwmem : w ∈ es := by simp [hes]
  rw [hes] at hrun
  obtain ⟨q₁, hrun₁, hrun₂⟩ := applyAllToKey_append.mp hrun
  obtain ⟨q₂, hw₂, hrun₃⟩ := applyAllToKey_cons.mp hrun₂
  have hne₁ : ¬ HasHash (w.hash pf) q₁ :=
    fun hq₁ => hne ((HasHash.congr (applyAllToKey_rest_of_none hpre hrun₁)).mp hq₁)
  have hthrow : w.throws pf = false := by
    by_contra hthrow
    simp only [Bool.not_eq_false] at hthrow
    simp [accepted_of_throws hthrow] at hw
  obtain rfl : some (freshProfile pf w vpnw q₁) = q₂ := by simpa [applyToKey, hne₁, hthrow, hvpnw] using hw₂
  have hrest₃ : q'.map rest = (some (freshProfile pf w vpnw q₁)).map rest := by
    refine applyAllToKey_rest ?_ hrun₃
    intro u hu hacc
    rw [hash_of_quiet hquiet u (by simp [hes, hu]) w hwmem hacc hw]
    exact freshProfile_hash
  obtain ⟨vp, hvp, hvc⟩ := hcarries v hv vpn hacc
  obtain ⟨happs, hflag⟩ := hvc.apps hvapps
  have hrest : rest vp = rest (freshProfile pf w vpnw q₁) := by simpa [hvp] using hrest₃
  simp only [rest, Prod.mk.injEq] at hrest
  have hwapps : w.apps ≠ ∅ := by
    intro hempty
    have htrue : (freshProfile pf w vpnw q₁).mAllowedAppsVpnAreDisallowed = true := freshProfile_noApps hempty
    rw [← hrest.2.2, hflag] at htrue
    cases htrue
  rw [← happs, hrest.2.1]
  exact (freshProfile_apps hwapps).1

end

theorem ConvergedKey.settled (hstandard : ∀ v ∈ es, (v.accepted pf).isSome → pf.fromString v.key = some v.key)
    (h : ConvergedKey pf q es) : Settled pf q es := by
  obtain ⟨q', hrun, hcarries, hquiet⟩ := h
  constructor
  case standard => exact hstandard
  case hash => exact hash_of_quiet hquiet
  case target =>
    intro v hv w hw vpn vpn' hvacc hwacc
    obtain ⟨vp, hvp, hvc⟩ := hcarries v hv vpn hvacc
    obtain ⟨vp', hvp', hwc⟩ := hcarries w hw vpn' hwacc
    obtain rfl : vp = vp' := Option.some.inj (hvp.symm.trans hvp')
    exact hvc.vpn.symm.trans hwc.vpn
  case certAlias => exact certAlias_of_quiet hrun hquiet
  case stored => exact fun v hv vpn hacc vp hvp => stored_of_converged hrun hquiet hcarries hv hacc hvp
  case apps =>
    exact fun pre w post hes hw hpre hne v hv => apps_of_converged hrun hquiet hcarries hes hw hpre hne hv
  case throws => exact fun pre t post => throws_of_quiet hrun hquiet

end AllInSafe.Restrictions
