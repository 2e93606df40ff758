import AllInSafe.Restrictions.Converge

/-! The entries for one UUID: what each makes of the profile, and what all of them make of it. -/

namespace AllInSafe.Restrictions
open AllInSafe.Library AllInSafe.Config

variable {pf : Platform} {p : ProfileBundle} {vpn : VpnProfile} {q q' : Option ManagedProfile} {vp : ManagedProfile}
  {es : List ProfileBundle} {certAlias : Option Str} {s : Saving}

/-! ## The alias -/

@[simp] theorem keystoreType_keystoreType {pkcs12 : Bool} {alias₁ : Str} {type : AuthenticationType} :
    keystoreType pkcs12 alias₁ (keystoreType pkcs12 alias₁ type) = keystoreType pkcs12 alias₁ type := by
  unfold keystoreType
  split_ifs <;> cases type <;> rfl

@[simp] theorem withAlias_withAlias : withAlias certAlias (withAlias certAlias vp) = withAlias certAlias vp := by
  simp [withAlias]

theorem withAlias_vpn_congr {vp₁ vp₂ : ManagedProfile} (h : vp₁.vpn = vp₂.vpn) :
    (withAlias certAlias vp₁).vpn = (withAlias certAlias vp₂).vpn := by
  simp only [withAlias, h]

theorem withAlias_eq_self_iff : withAlias certAlias vp = vp ↔
    vp.mAlias = some (certAlias.getD []) ∧ (withAlias certAlias vp).vpn = vp.vpn := by
  constructor
  · intro h
    constructor
    · rw [← h]; rfl
    · rw [h]
  · rintro ⟨halias, hvpn⟩
    obtain ⟨vpn, mAlias, mVersion, mUserEditable, mProfileCreator, importedProfileHash, apps, areDisallowed⟩ := vp
    simp only [withAlias] at hvpn halias ⊢
    rw [hvpn, halias]

/-- The fields of a profile that no alias changes. -/
def rest (vp : ManagedProfile) : Option Str × Finset Str × Bool :=
  (vp.importedProfileHash, vp.mAllowedAppsVpn, vp.mAllowedAppsVpnAreDisallowed)

@[simp] theorem addCertificateAlias_vpn :
    (addCertificateAlias certAlias s).profile.vpn = (withAlias certAlias s.profile).vpn := by
  simp only [addCertificateAlias]
  split_ifs <;> rfl

@[simp] theorem addCertificateAlias_mAlias :
    (addCertificateAlias certAlias s).profile.mAlias = some (certAlias.getD []) := by
  simp only [addCertificateAlias]
  split_ifs <;> rfl

@[simp] theorem addCertificateAlias_rest : rest (addCertificateAlias certAlias s).profile = rest s.profile := by
  simp only [addCertificateAlias]
  split_ifs <;> rfl

/-- The alias is saved exactly where it changes something. -/
theorem addCertificateAlias_of_eq (h : withAlias certAlias s.profile = s.profile) : addCertificateAlias certAlias s = s := by
  simp [addCertificateAlias, Saving.map, h]

theorem addCertificateAlias_of_ne (h : withAlias certAlias s.profile ≠ s.profile) :
    addCertificateAlias certAlias s = (s.map (withAlias certAlias)).save := by
  have hchanged : (withAlias certAlias s.profile).mAlias ≠ s.profile.mAlias ∨
      s.profile.vpn.mAuthenticationType ≠ (withAlias certAlias s.profile).vpn.mAuthenticationType := by
    by_contra hsame
    push Not at hsame
    apply h
    apply withAlias_eq_self_iff.mpr
    refine ⟨hsame.1.symm, ?_⟩
    have htype := hsame.2
    simp only [withAlias] at htype ⊢
    rw [← htype]
  exact if_pos hchanged

/-! ## A new profile -/

@[simp] theorem Saving.map_profile {f : ManagedProfile → ManagedProfile} : (s.map f).profile = f s.profile := rfl

@[simp] theorem Saving.save_vpn : s.save.profile.vpn = s.profile.vpn := rfl

@[simp] theorem Saving.save_mAlias : s.save.profile.mAlias = s.profile.mAlias := rfl

@[simp] theorem Saving.save_rest : rest s.save.profile = rest s.profile := rfl

/-- Neither of the two steps changes what an alias changes, nor the hash. -/
theorem updateAllowedApps_frame {allowedApps : Option Str} :
    (updateAllowedApps allowedApps s).profile.vpn = s.profile.vpn ∧
      (updateAllowedApps allowedApps s).profile.mAlias = s.profile.mAlias ∧
      (updateAllowedApps allowedApps s).profile.importedProfileHash = s.profile.importedProfileHash := by
  cases allowedApps with
  | none => exact ⟨rfl, rfl, rfl⟩
  | some apps =>
      simp only [updateAllowedApps]
      split_ifs <;> exact ⟨rfl, rfl, rfl⟩

theorem keepAllowedApps_frame {allowedApps : Option Str} {old : Option (Finset Str)} :
    (keepAllowedApps allowedApps old s).profile.vpn = s.profile.vpn ∧
      (keepAllowedApps allowedApps old s).profile.mAlias = s.profile.mAlias ∧
      (keepAllowedApps allowedApps old s).profile.importedProfileHash = s.profile.importedProfileHash ∧
      (keepAllowedApps allowedApps old s).profile.mAllowedAppsVpnAreDisallowed = s.profile.mAllowedAppsVpnAreDisallowed := by
  cases old with
  | none => exact ⟨rfl, rfl, rfl, rfl⟩
  | some old =>
      simp only [keepAllowedApps]
      split_ifs <;> exact ⟨rfl, rfl, rfl, rfl⟩

theorem freshProfile_vpn : (freshProfile pf p vpn q).vpn = p.target vpn := by
  simp only [freshProfile, configure, keepAllowedApps_frame.1, updateAllowedApps_frame.1, addCertificateAlias_vpn]
  exact withAlias_vpn_congr rfl

theorem freshProfile_mAlias : (freshProfile pf p vpn q).mAlias = some (p.certificate_alias.getD []) := by
  simp only [freshProfile, configure, keepAllowedApps_frame.2.1, updateAllowedApps_frame.2.1, addCertificateAlias_mAlias]

theorem freshProfile_hash : (freshProfile pf p vpn q).importedProfileHash = some (p.hash pf) := by
  simp only [freshProfile, configure, keepAllowedApps_frame.2.2.1, updateAllowedApps_frame.2.2]
  exact congrArg Prod.fst addCertificateAlias_rest

/-- The entry names its apps: they are the allowed ones. -/
theorem freshProfile_apps (h : p.apps ≠ ∅) : (freshProfile pf p vpn q).mAllowedAppsVpn = p.apps ∧
    (freshProfile pf p vpn q).mAllowedAppsVpnAreDisallowed = false := by
  cases hallowed : p.allowed_apps with
  | none => simp [ProfileBundle.apps, hallowed, packages_nil] at h
  | some apps =>
      simp only [ProfileBundle.apps, hallowed, Option.getD_some] at h ⊢
      have hne : apps ≠ [] := by
        rintro rfl
        exact h packages_nil
      have hnew : ∀ t : Saving, (keepAllowedApps (some apps) (q.map ManagedProfile.mAllowedAppsVpn) t) = t := by
        intro t
        cases q <;> simp [keepAllowedApps, isEmpty, hne]
      have hempty : (addCertificateAlias p.certificate_alias
          (Saving.save ⟨provisioned vpn (p.name.getD []) (p.hash pf) q, []⟩)).profile.mAllowedAppsVpn = ∅ := by
        rw [addCertificateAlias_mAllowedAppsVpn]
        rfl
      simp only [freshProfile, configure, hallowed, hnew, updateAllowedApps, hempty, if_pos h]
      exact ⟨rfl, rfl⟩

/-- The entry names no app: the flag is the one of a new profile. -/
theorem freshProfile_noApps (h : p.apps = ∅) : (freshProfile pf p vpn q).mAllowedAppsVpnAreDisallowed = true := by
  simp only [freshProfile, configure, keepAllowedApps_frame.2.2.2]
  cases hallowed : p.allowed_apps with
  | none =>
      simp only [updateAllowedApps, addCertificateAlias_mAllowedAppsVpnAreDisallowed]
      rfl
  | some apps =>
      simp only [ProfileBundle.apps, hallowed, Option.getD_some] at h
      have hempty : (addCertificateAlias p.certificate_alias
          (Saving.save ⟨provisioned vpn (p.name.getD []) (p.hash pf) q, []⟩)).profile.mAllowedAppsVpn = ∅ := by
        rw [addCertificateAlias_mAllowedAppsVpn]
        rfl
      simp only [updateAllowedApps, h, hempty, ne_eq, not_true_eq_false, if_false,
        addCertificateAlias_mAllowedAppsVpnAreDisallowed]
      rfl

theorem Carries.withAlias_eq (h : Carries p vpn vp) : withAlias p.certificate_alias vp = vp := by
  apply withAlias_eq_self_iff.mpr
  refine ⟨h.mAlias, ?_⟩
  calc (withAlias p.certificate_alias vp).vpn
      = (withAlias p.certificate_alias
          (withAlias p.certificate_alias { vpn := { vpn with mName := p.name.getD [] } })).vpn := withAlias_vpn_congr h.vpn
    _ = p.target vpn := by rw [withAlias_withAlias]; rfl
    _ = vp.vpn := h.vpn.symm

/-! ## One entry -/

theorem accepted_of_throws (h : p.throws pf = true) : p.accepted pf = none := by
  unfold ProfileBundle.throws at h
  unfold ProfileBundle.accepted
  split at h
  case h_1 => cases h
  case h_2 e he => rfl

theorem HasHash.congr {hash : Str} (h : q'.map rest = q.map rest) : HasHash hash q' ↔ HasHash hash q := by
  have hbind : ∀ q : Option ManagedProfile, q.bind ManagedProfile.importedProfileHash = (q.map rest).bind Prod.fst := by
    intro q
    cases q <;> rfl
  rw [HasHash, HasHash, hbind, hbind, h]

theorem HasHash.unique {hash hash' : Str} (h : HasHash hash q) (h' : HasHash hash' q) : hash = hash' :=
  Option.some.inj (h.symm.trans h')

/-- An entry that is not a new configuration keeps all but the alias. -/
theorem applyToKey_rest (haccepted : (p.accepted pf).isSome → HasHash (p.hash pf) q)
    (h : applyToKey pf p q = some q') : q'.map rest = q.map rest := by
  unfold applyToKey at h
  split_ifs at h with hhash hthrows
  · cases h
    cases q with
    | none => rfl
    | some vp => simp
  · cases hp : p.accepted pf with
    | none => simp only [hp, Option.some.injEq] at h; rw [h]
    | some vpn => exact absurd (haccepted (by simp [hp])) hhash

theorem applyToKey_of_quiet (h : Quiet pf p q) : applyToKey pf p q = some q := by
  unfold Quiet at h
  unfold applyToKey
  split_ifs at h with hhash
  · rw [if_pos hhash]
    cases q with
    | none => rfl
    | some vp => rw [Option.map_some, addCertificateAlias_of_eq (h vp rfl)]
  · simp [hhash, h.1, h.2]

/-! ## All entries -/

@[simp] theorem applyAllToKey_nil : applyAllToKey pf [] q = some q := rfl

theorem applyAllToKey_cons : applyAllToKey pf (p :: es) q = some q' ↔
    ∃ q₁, applyToKey pf p q = some q₁ ∧ applyAllToKey pf es q₁ = some q' := by
  simp [applyAllToKey, List.foldlM_cons, Option.bind_eq_some_iff]

theorem applyAllToKey_append {es' : List ProfileBundle} : applyAllToKey pf (es ++ es') q = some q' ↔
    ∃ q₁, applyAllToKey pf es q = some q₁ ∧ applyAllToKey pf es' q₁ = some q' := by
  simp [applyAllToKey, List.foldlM_append, Option.bind_eq_some_iff]

theorem applyAllToKey_of_quiet (h : ∀ p ∈ es, Quiet pf p q) : applyAllToKey pf es q = some q := by
  induction es with
  | nil => rfl
  | cons p es ih =>
      rw [List.forall_mem_cons] at h
      exact applyAllToKey_cons.mpr ⟨q, applyToKey_of_quiet h.1, ih h.2⟩

/-- Where no entry brings a new configuration, all but the alias is kept. -/
theorem applyAllToKey_rest (haccepted : ∀ v ∈ es, (v.accepted pf).isSome → HasHash (v.hash pf) q)
    (h : applyAllToKey pf es q = some q') : q'.map rest = q.map rest := by
  induction es generalizing q with
  | nil => cases h; rfl
  | cons p es ih =>
      rw [List.forall_mem_cons] at haccepted
      obtain ⟨q₁, hp, hes⟩ := applyAllToKey_cons.mp h
      have hrest := applyToKey_rest haccepted.1 hp
      rw [ih (fun v hv hacc => (HasHash.congr hrest).mpr (haccepted.2 v hv hacc)) hes, hrest]

/-- Entries that are not accepted change nothing but the alias. -/
theorem applyAllToKey_rest_of_none (hnone : ∀ v ∈ es, v.accepted pf = none) (h : applyAllToKey pf es q = some q') :
    q'.map rest = q.map rest :=
  applyAllToKey_rest (fun v hv hacc => by simp [hnone v hv] at hacc) h

/-- None of the entries throws. -/
theorem exists_applyAllToKey (haccepted : ∀ v ∈ es, (v.accepted pf).isSome → HasHash (v.hash pf) q)
    (hthrows : ∀ v ∈ es, v.throws pf = true → HasHash (v.hash pf) q) : ∃ q', applyAllToKey pf es q = some q' := by
  induction es generalizing q with
  | nil => exact ⟨q, rfl⟩
  | cons p es ih =>
      rw [List.forall_mem_cons] at haccepted hthrows
      have hstep : ∃ q₁, applyToKey pf p q = some q₁ := by
        unfold applyToKey
        split_ifs with hhash hthrow
        · exact ⟨_, rfl⟩
        · exact absurd (hthrows.1 hthrow) hhash
        · cases p.accepted pf <;> exact ⟨_, rfl⟩
      obtain ⟨q₁, hq₁⟩ := hstep
      have hrest := applyToKey_rest haccepted.1 hq₁
      obtain ⟨q', hq'⟩ := ih (fun v hv hacc => (HasHash.congr hrest).mpr (haccepted.2 v hv hacc))
        (fun v hv hthrow => (HasHash.congr hrest).mpr (hthrows.2 v hv hthrow))
      exact ⟨q', applyAllToKey_cons.mpr ⟨q₁, hq₁, hq'⟩⟩

theorem withAlias_congr {certAlias' : Option Str} (h : certAlias.getD [] = certAlias'.getD []) :
    withAlias certAlias = withAlias certAlias' := by
  funext vp
  simp only [withAlias, h]

/-- A profile to which the alias was added has it. -/
theorem withAlias_addCertificateAlias :
    withAlias certAlias (addCertificateAlias certAlias s).profile = (addCertificateAlias certAlias s).profile := by
  apply withAlias_eq_self_iff.mpr
  refine ⟨addCertificateAlias_mAlias, ?_⟩
  rw [addCertificateAlias_vpn]
  calc (withAlias certAlias (addCertificateAlias certAlias s).profile).vpn
      = (withAlias certAlias (withAlias certAlias s.profile)).vpn := withAlias_vpn_congr addCertificateAlias_vpn
    _ = (withAlias certAlias s.profile).vpn := by rw [withAlias_withAlias]

/-- What one alias keeps of a profile: its configuration but for the type that the alias sets. -/
structure KeptBy (certAlias : Option Str) (hashed : Prop) (vp vp' : ManagedProfile) : Prop where
  vpn : (withAlias certAlias vp').vpn = (withAlias certAlias vp).vpn
  aliased : hashed ∨ withAlias certAlias vp = vp → withAlias certAlias vp' = vp'

theorem applyToKey_keptBy (haccepted : (p.accepted pf).isSome → HasHash (p.hash pf) q)
    (halias : HasHash (p.hash pf) q → p.certificate_alias.getD [] = certAlias.getD [])
    (h : applyToKey pf p q = some q') {vp' : ManagedProfile} (hvp' : q' = some vp') :
    ∃ vp, q = some vp ∧ KeptBy certAlias (HasHash (p.hash pf) q) vp vp' := by
  unfold applyToKey at h
  split_ifs at h with hhash hthrows
  · cases h
    obtain ⟨vp, hvp, rfl⟩ := Option.map_eq_some_iff.mp hvp'
    have hsame := withAlias_congr (halias hhash)
    refine ⟨vp, hvp, ?_, fun _ => ?_⟩
    · rw [← hsame, withAlias_addCertificateAlias, addCertificateAlias_vpn]
    · rw [← hsame, withAlias_addCertificateAlias]
  · cases hp : p.accepted pf with
    | none =>
        simp only [hp, Option.some.injEq] at h
        exact ⟨vp', by rw [h, hvp'], rfl, fun hor => hor.resolve_left hhash⟩
    | some vpn => exact absurd (haccepted (by simp [hp])) hhash

theorem applyAllToKey_keptBy (haccepted : ∀ v ∈ es, (v.accepted pf).isSome → HasHash (v.hash pf) q)
    (halias : ∀ v ∈ es, HasHash (v.hash pf) q → v.certificate_alias.getD [] = certAlias.getD [])
    (h : applyAllToKey pf es q = some q') {vp' : ManagedProfile} (hvp' : q' = some vp') :
    ∃ vp, q = some vp ∧ KeptBy certAlias (∃ v ∈ es, HasHash (v.hash pf) q) vp vp' := by
  induction es generalizing q with
  | nil =>
      cases h
      exact ⟨vp', hvp', rfl, by simp⟩
  | cons p es ih =>
      rw [List.forall_mem_cons] at haccepted halias
      obtain ⟨q₁, hp, hes⟩ := applyAllToKey_cons.mp h
      have hrest := applyToKey_rest haccepted.1 hp
      obtain ⟨vp₁, hvp₁, hkept₁⟩ := ih (fun v hv hacc => (HasHash.congr hrest).mpr (haccepted.2 v hv hacc))
        (fun v hv hhash => halias.2 v hv ((HasHash.congr hrest).mp hhash)) hes
      obtain ⟨vp, hvp, hkept⟩ := applyToKey_keptBy haccepted.1 halias.1 hp hvp₁
      refine ⟨vp, hvp, hkept₁.vpn.trans hkept.vpn, ?_⟩
      rintro (⟨v, hv, hhash⟩ | haliased)
      · rcases List.mem_cons.mp hv with rfl | hv
        · exact hkept₁.aliased (Or.inr (hkept.aliased (Or.inl hhash)))
        · exact hkept₁.aliased (Or.inl ⟨v, hv, (HasHash.congr hrest).mpr hhash⟩)
      · exact hkept₁.aliased (Or.inr (hkept.aliased (Or.inr haliased)))

end AllInSafe.Restrictions
