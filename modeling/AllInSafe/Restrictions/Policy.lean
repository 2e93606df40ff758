import AllInSafe.Restrictions.Model

/-!
# The app policy of a managed profile

Bundles and choices of the user one after the other, and what an entry without apps makes of the policy of the
profile that it replaces.
-/

namespace AllInSafe.Restrictions
open AllInSafe.Library AllInSafe.Config

/-! ## Runs -/

inductive Event
  | bundle (restrictions : RestrictionsBundle)
  /-- The user chooses the apps of a profile. -/
  | allowApps (uuid : Str) (apps : Finset Str) (areDisallowed : Bool)

def Store.allowApps (uuid : Str) (apps : Finset Str) (areDisallowed : Bool) (store : Store) : Store :=
  match store.profiles uuid with
  | some p =>
      store.put uuid (Saving.save ⟨{ p with mAllowedAppsVpn := apps, mAllowedAppsVpnAreDisallowed := areDisallowed }, []⟩)
  | none => store

def provisioning (pf : Platform) : Machine Store Event where
  init := { profiles := fun _ => none }
  step
    | store, .bundle restrictions => (parseRestrictionsBundle pf restrictions store).toOption
    | store, .allowApps uuid apps areDisallowed => some (store.allowApps uuid apps areDisallowed)

/-- The loop of `importVPNProfiles`. -/
def loop (pf : Platform) (defaultprofile : Option Str) (store : Store) : Machine Import (Option ProfileBundle) where
  init := { store := store, defaultprofile := defaultprofile }
  step v profile := (importVPNProfile pf v profile).toOption

/-- Every entry that the bundle's loop reaches meets `good` with the profiles that it finds. -/
def EntriesMeet (pf : Platform) (good : Store → ProfileBundle → Prop) (store : Store) (restrictions : RestrictionsBundle) :
    Prop :=
  restrictions.supported = true →
    (loop pf restrictions.defaultprofile store).StepsMeet (fun v profile => ∀ p ∈ profile, good v.store p)
      (loop pf restrictions.defaultprofile store).init (restrictions.vpn_configuration_list.getD [])

/-! ## Replacing a profile -/

variable (pf : Platform)

/-- An entry without apps replaces a managed profile, since its configuration has changed. -/
structure Replacing (store : Store) (p : ProfileBundle) (old : ManagedProfile) : Prop where
  complete : p.misses = false
  empty : isEmpty p.allowed_apps = true
  found : store.profiles p.key = some old
  managed : old.managed = true
  changed : old.importedProfileHash ≠ some (p.hash pf)
  uuid : pf.fromString p.key = some p.key
  accepted : ∃ vpn, pf.convertProfile (prepare pf (p.ovpn.getD [])) = .ok vpn

/-- The same of the installed apps go through the tunnel, whichever are installed. -/
def SameApps (p q : ManagedProfile) : Prop :=
  ∀ (packageName : Str) (installed : Finset Str) (profileUsesOrBot : Bool), packageName ∈ installed →
    appsThroughVpn packageName installed profileUsesOrBot p = appsThroughVpn packageName installed profileUsesOrBot q

/-- An entry keeps the app policy of the profile that it replaces. -/
def KeepsPolicy (store : Store) (p : ProfileBundle) : Prop :=
  ∀ old, Replacing pf store p old →
    ∃ store' new, applyProfile pf p store = .ok store' ∧ store'.profiles p.key = some new ∧ SameApps new old

/-- The replaced profile names the apps that do not go through the tunnel. -/
def ReplacesDisallowed (store : Store) (p : ProfileBundle) : Prop :=
  ∀ old, Replacing pf store p old → old.mAllowedAppsVpnAreDisallowed = true

/-- Every entry of the event's bundle meets `good`. -/
def Event.EntriesMeet (good : Store → ProfileBundle → Prop) (store : Store) : Event → Prop
  | .bundle restrictions => Restrictions.EntriesMeet pf good store restrictions
  | .allowApps _ _ _ => True

variable {pf}

/-! ## Policies -/

/-- Of one set of apps, the allowed and the disallowed reading are never the same policy. -/
theorem not_sameApps {p q : ManagedProfile} (happs : p.mAllowedAppsVpn = q.mAllowedAppsVpn)
    (hp : p.mAllowedAppsVpnAreDisallowed = true) (hq : q.mAllowedAppsVpnAreDisallowed = false) : ¬ SameApps p q := by
  intro h
  obtain ⟨app, happ⟩ := Infinite.exists_notMem_finset (q.mAllowedAppsVpn ∪ {[]})
  simp only [Finset.mem_union, Finset.mem_singleton, not_or] at happ
  obtain ⟨hout, hne⟩ := happ
  have hsame := h [] {[], app} false (by simp)
  have hthrough : app ∈ appsThroughVpn [] {[], app} false p := by
    simp [appsThroughVpn, setAllowedVpnPackages, Builder.throughVpn, hp, happs, hout]
  rw [hsame] at hthrough
  simp only [appsThroughVpn, setAllowedVpnPackages, hq, Builder.throughVpn] at hthrough
  split_ifs at hthrough <;> simp_all

theorem sameApps_iff {p q : ManagedProfile} (happs : p.mAllowedAppsVpn = q.mAllowedAppsVpn) :
    SameApps p q ↔ p.mAllowedAppsVpnAreDisallowed = q.mAllowedAppsVpnAreDisallowed := by
  constructor
  · intro h
    cases hp : p.mAllowedAppsVpnAreDisallowed with
    | true =>
        cases hq : q.mAllowedAppsVpnAreDisallowed with
        | true => rfl
        | false => exact absurd h (not_sameApps happs hp hq)
    | false =>
        cases hq : q.mAllowedAppsVpnAreDisallowed with
        | true => exact absurd (fun a b c d => (h a b c d).symm) (not_sameApps happs.symm hq hp)
        | false => rfl
  · intro hflag packageName installed profileUsesOrBot _
    simp [appsThroughVpn, setAllowedVpnPackages, happs, hflag]

/-! ## Entries -/

@[simp] theorem addCertificateAlias_mAllowedAppsVpn {certAlias : Option Str} {s : Saving} :
    (addCertificateAlias certAlias s).profile.mAllowedAppsVpn = s.profile.mAllowedAppsVpn := by
  simp only [addCertificateAlias]
  split_ifs <;> rfl

@[simp] theorem addCertificateAlias_mAllowedAppsVpnAreDisallowed {certAlias : Option Str} {s : Saving} :
    (addCertificateAlias certAlias s).profile.mAllowedAppsVpnAreDisallowed = s.profile.mAllowedAppsVpnAreDisallowed := by
  simp only [addCertificateAlias]
  split_ifs <;> rfl

theorem packages_nil : packages [] = ∅ := by decide

/-- Nothing is updated where the new profile has no apps and the entry has none. -/
theorem updateAllowedApps_of_isEmpty {allowedApps : Option Str} {s : Saving} (h : isEmpty allowedApps = true)
    (hs : s.profile.mAllowedAppsVpn = ∅) : updateAllowedApps allowedApps s = s := by
  cases allowedApps with
  | none => rfl
  | some apps =>
      obtain rfl : apps = [] := by simpa [isEmpty] using h
      simp [updateAllowedApps, packages_nil, hs]

@[simp] theorem put_profiles_self {uuid : Str} {s : Saving} {store : Store} :
    (store.put uuid s).profiles uuid = some s.profile := Function.update_self _ _ _

/-- The new profile has the old set of apps, and the flag of a new profile. -/
theorem configure_of_isEmpty {p : ProfileBundle} {old vp : ManagedProfile} (hempty : isEmpty p.allowed_apps = true)
    (happs : vp.mAllowedAppsVpn = ∅) :
    (configure p (some old) (Saving.save ⟨vp, []⟩)).profile.mAllowedAppsVpn = old.mAllowedAppsVpn ∧
      (configure p (some old) (Saving.save ⟨vp, []⟩)).profile.mAllowedAppsVpnAreDisallowed =
        vp.mAllowedAppsVpnAreDisallowed := by
  have hkeep : (addCertificateAlias p.certificate_alias (Saving.save ⟨vp, []⟩)).profile.mAllowedAppsVpn = ∅ := by
    simp [Saving.save, happs]
  simp only [configure, updateAllowedApps_of_isEmpty hempty hkeep]
  simp [keepAllowedApps, hempty, Saving.map, Saving.save]

theorem Replacing.applyProfile {store : Store} {p : ProfileBundle} {old : ManagedProfile} (h : Replacing pf store p old) :
    ∃ store' new, applyProfile pf p store = .ok store' ∧ store'.profiles p.key = some new ∧
      new.mAllowedAppsVpn = old.mAllowedAppsVpn ∧ new.mAllowedAppsVpnAreDisallowed = true := by
  obtain ⟨vpn, hvpn⟩ := h.accepted
  simp only [Restrictions.applyProfile, h.found, if_neg h.changed, importProfile, addProfile, hvpn, h.uuid]
  exact ⟨_, _, rfl, put_profiles_self, configure_of_isEmpty h.empty rfl⟩

theorem keepsPolicy_iff {store : Store} {p : ProfileBundle} : KeepsPolicy pf store p ↔ ReplacesDisallowed pf store p := by
  apply forall_congr'
  intro old
  apply imp_congr_right
  intro h
  obtain ⟨store', new, hstore, hnew, happs, hflag⟩ := h.applyProfile
  constructor
  · rintro ⟨store₂, new₂, hstore₂, hnew₂, hsame⟩
    obtain rfl : store' = store₂ := by simpa [hstore] using hstore₂
    obtain rfl : new = new₂ := by simpa [hnew] using hnew₂
    rw [← (sameApps_iff happs).mp hsame, hflag]
  · intro hold
    exact ⟨store', new, hstore, hnew, (sameApps_iff happs).mpr (by rw [hflag, hold])⟩

end AllInSafe.Restrictions
