import AllInSafe.Restrictions.VpnPackages

/-!
# The packages of a tunnel: missing packages

The loop over the packages completes where no package that the handler takes out of the set is followed by another one,
and then every installed package is with the builder and every missing one out of the set.
-/

namespace AllInSafe.Restrictions.OpenVPNService
open AllInSafe.Library AllInSafe.Config

/-! ## The builder -/

namespace VpnBuilder

variable {pm : PackageManager} {b : VpnBuilder} {pkg : Str} {disallowed : Bool}

/-- The builder has no application of the other list. -/
def Only (disallowed : Bool) (b : VpnBuilder) : Prop :=
  (if disallowed then b.allowedApplications else b.disallowedApplications) = none

/-- The builder after one more application of a list. -/
def hand (disallowed : Bool) (pkg : Str) (b : VpnBuilder) : VpnBuilder :=
  if disallowed then ⟨none, some (b.applications true ++ [pkg]), b.bypass, .inl rfl⟩
  else ⟨some (b.applications false ++ [pkg]), none, b.bypass, .inr rfl⟩

@[simp] theorem only_hand : (b.hand disallowed pkg).Only disallowed := by
  cases disallowed <;> simp [Only, hand]

@[simp] theorem applications_hand :
    (b.hand disallowed pkg).applications disallowed = b.applications disallowed ++ [pkg] := by
  cases disallowed <;> simp [applications, hand]

theorem Only.applications_not (h : b.Only disallowed) : b.applications (!disallowed) = [] := by
  cases disallowed with
  | false => simpa [applications, Only] using congrArg (Option.getD · []) h
  | true => simpa [applications, Only] using congrArg (Option.getD · []) h

theorem addAllowedApplication_eq (h : b.Only false) :
    b.addAllowedApplication pm pkg =
      if pkg ∈ pm.installed then .ok (b.hand false pkg) else .error .nameNotFound := by
  have hnone : b.disallowedApplications = none := h
  simp [addAllowedApplication, hnone, hand, applications]

theorem addDisallowedApplication_eq (h : b.Only true) :
    b.addDisallowedApplication pm pkg =
      if pkg ∈ pm.installed then .ok (b.hand true pkg) else .error .nameNotFound := by
  have hnone : b.allowedApplications = none := h
  simp [addDisallowedApplication, hnone, hand, applications]

end VpnBuilder

variable {pm : PackageManager} {p : AppProfile} {s t : Filtering} {pkg : Str} {xs : List Str}

/-! ## One package -/

variable (pm p) in
/-- The package is named to the builder. -/
def hands (pkg : Str) : Bool := pkg ∈ pm.installed && !p.skips pkg

variable (pm p) in
/-- The package is looked for and not found. -/
def misses (pkg : Str) : Bool := pkg ∉ pm.installed && !p.skips pkg

variable (pm p) in
/-- What the turn of a package does. -/
def turn (s : Filtering) (pkg : Str) : Filtering :=
  if p.skips pkg then s
  else if pkg ∈ pm.installed then
    { s with
      builder := s.builder.hand p.mAllowedAppsVpnAreDisallowed pkg
      atLeastOneAllowedApp := s.atLeastOneAllowedApp || !p.mAllowedAppsVpnAreDisallowed }
  else s.forget pkg

theorem tryPackage_eq (h : s.builder.Only p.mAllowedAppsVpnAreDisallowed) :
    tryPackage pm p s pkg = .ok (turn pm p s pkg) := by
  cases hmode : p.mAllowedAppsVpnAreDisallowed with
  | true =>
      rw [hmode] at h
      by_cases hpkg : pkg ∈ pm.installed
      · simp [tryPackage, addPackage, turn, AppProfile.skips, hmode, hpkg, VpnBuilder.addDisallowedApplication_eq h]
      · simp [tryPackage, addPackage, turn, AppProfile.skips, hmode, hpkg, VpnBuilder.addDisallowedApplication_eq h]
  | false =>
      rw [hmode] at h
      cases hskips : p.usesOrbot && decide (pkg = ORBOT_PACKAGE_NAME) with
      | true => simp [tryPackage, addPackage, turn, AppProfile.skips, hmode, hskips]; rfl
      | false =>
          by_cases hpkg : pkg ∈ pm.installed
          · simp [tryPackage, addPackage, turn, AppProfile.skips, hmode, hskips, hpkg,
              VpnBuilder.addAllowedApplication_eq h]
          · simp [tryPackage, addPackage, turn, AppProfile.skips, hmode, hskips, hpkg,
              VpnBuilder.addAllowedApplication_eq h]

/-! ## The packages of a loop -/

variable (pm p) in
/-- What the turns of some packages do, from a state to another one. -/
structure Handled (s : Filtering) (xs : List Str) (t : Filtering) : Prop where
  only : t.builder.Only p.mAllowedAppsVpnAreDisallowed
  applications : t.builder.applications p.mAllowedAppsVpnAreDisallowed =
    s.builder.applications p.mAllowedAppsVpnAreDisallowed ++ xs.filter (hands pm p)
  elements : t.mAllowedAppsVpn.elements =
    s.mAllowedAppsVpn.elements.filter fun pkg => !(xs.contains pkg && misses pm p pkg)
  atLeastOneAllowedApp : t.atLeastOneAllowedApp =
    (s.atLeastOneAllowedApp || (!p.mAllowedAppsVpnAreDisallowed && xs.any (hands pm p)))

theorem handled_nil (h : s.builder.Only p.mAllowedAppsVpnAreDisallowed) : Handled pm p s [] s where
  only := h
  applications := by simp
  elements := by simp
  atLeastOneAllowedApp := by simp

theorem filter_of_not_misses {pkgs : List Str} (h : misses pm p pkg = false) :
    (pkgs.filter fun x => !([pkg].contains x && misses pm p x)) = pkgs := by
  apply List.filter_eq_self.mpr
  intro x _
  by_cases hx : x = pkg
  · simp [hx, h]
  · simp [hx]

theorem handled_turn (h : s.builder.Only p.mAllowedAppsVpnAreDisallowed) :
    Handled pm p s [pkg] (turn pm p s pkg) := by
  by_cases hskips : p.skips pkg = true
  · have hturn : turn pm p s pkg = s := by simp [turn, hskips]
    rw [hturn]
    have hmisses : misses pm p pkg = false := by simp [misses, hskips]
    exact ⟨h, by simp [hands, hskips], (filter_of_not_misses hmisses).symm, by simp [hands, hskips]⟩
  · by_cases hpkg : pkg ∈ pm.installed
    · have hmisses : misses pm p pkg = false := by simp [misses, hpkg]
      simp only [turn, hskips, hpkg, if_true, Bool.false_eq_true, if_false]
      exact ⟨by simp, by simp [hands, hskips, hpkg], (filter_of_not_misses hmisses).symm,
        by simp [hands, hskips, hpkg]⟩
    · simp only [turn, hskips, hpkg, Bool.false_eq_true, if_false, Filtering.forget, Filtering.logs]
      refine ⟨h, by simp [hands, hpkg], ?_, by simp [hands, hpkg]⟩
      rw [FailFast.elements_remove]
      apply List.filter_congr
      intro x _
      by_cases hx : x = pkg <;> simp [misses, hx, hpkg, hskips]

theorem Handled.append {u : Filtering} {ys : List Str} (hxs : Handled pm p s xs t) (hys : Handled pm p t ys u) :
    Handled pm p s (xs ++ ys) u where
  only := hys.only
  applications := by rw [hys.applications, hxs.applications, List.filter_append, List.append_assoc]
  elements := by
    rw [hys.elements, hxs.elements, List.filter_filter]
    apply List.filter_congr
    intro x _
    cases hx : misses pm p x <;> simp [Bool.and_comm]
  atLeastOneAllowedApp := by
    rw [hys.atLeastOneAllowedApp, hxs.atLeastOneAllowedApp, List.any_append, Bool.and_or_distrib_left, Bool.or_assoc]

theorem handled_foldl (h : s.builder.Only p.mAllowedAppsVpnAreDisallowed) :
    Handled pm p s xs (xs.foldl (turn pm p) s) := by
  induction xs generalizing s with
  | nil => exact handled_nil h
  | cons pkg xs ih =>
      have hturn : Handled pm p s [pkg] (turn pm p s pkg) := handled_turn h
      exact hturn.append (ih hturn.only)

theorem modCount_turn (hpkg : pkg ∈ s.mAllowedAppsVpn.elements) :
    (turn pm p s pkg).mAllowedAppsVpn.modCount = s.mAllowedAppsVpn.modCount + if misses pm p pkg then 1 else 0 := by
  by_cases hskips : p.skips pkg = true
  · simp [turn, misses, hskips]
  · by_cases hinstalled : pkg ∈ pm.installed
    · simp [turn, misses, hskips, hinstalled]
    · simp [turn, misses, hskips, hinstalled, Filtering.forget, Filtering.logs, FailFast.modCount_remove hpkg]

/-- The loop takes the packages up to the first missing one, and only ends by itself when none follows. -/
theorem loopPackages_eq (h : s.builder.Only p.mAllowedAppsVpnAreDisallowed) :
    loopPackages pm p s =
      if ∀ pkg ∈ s.mAllowedAppsVpn.elements.dropLast, ¬ misses pm p pkg = true then
        .ended (s.mAllowedAppsVpn.elements.foldl (turn pm p) s)
      else .thrown .concurrentModification
        ((FailFast.taken (fun pkg => misses pm p pkg = true) s.mAllowedAppsVpn.elements).foldl (turn pm p) s) := by
  let I : List Str → Filtering → Prop := fun xs s =>
    s.builder.Only p.mAllowedAppsVpnAreDisallowed ∧ xs.Nodup ∧ ∀ x ∈ xs, x ∈ s.mAllowedAppsVpn.elements
  apply FailFast.iterate_eq (I := I)
  · intro pkg xs s ⟨honly, hnodup, hin⟩
    obtain ⟨hnotin, hrest⟩ := List.nodup_cons.mp hnodup
    have hturn : Handled pm p s [pkg] (turn pm p s pkg) := handled_turn honly
    refine ⟨tryPackage_eq honly, ⟨hturn.only, hrest, fun x hx => ?_⟩, ?_⟩
    · -- the removal of one package leaves the later ones in the set
      have hne : x ≠ pkg := fun heq => hnotin (heq ▸ hx)
      rw [hturn.elements]
      simp [hin x (List.mem_cons_of_mem _ hx), hne]
    · exact modCount_turn (hin pkg List.mem_cons_self)
  · exact ⟨h, s.mAllowedAppsVpn.nodup, fun _ hx => hx⟩

/-! ## Before and after the loop -/

variable (pm p) in
/-- Orbot, where it is excluded before the loop. -/
def orbotFirst : List Str :=
  if p.mAllowedAppsVpnAreDisallowed && p.usesOrbot && ORBOT_PACKAGE_NAME ∈ pm.installed then [ORBOT_PACKAGE_NAME]
  else []

theorem exists_excludeOrbot (h : s.builder.Only p.mAllowedAppsVpnAreDisallowed) :
    ∃ t, excludeOrbot pm p s = .ended t ∧ t.builder.Only p.mAllowedAppsVpnAreDisallowed ∧
      t.mAllowedAppsVpn = s.mAllowedAppsVpn ∧ t.atLeastOneAllowedApp = s.atLeastOneAllowedApp ∧
      t.builder.applications p.mAllowedAppsVpnAreDisallowed =
        s.builder.applications p.mAllowedAppsVpnAreDisallowed ++ orbotFirst pm p := by
  cases hmode : p.mAllowedAppsVpnAreDisallowed with
  | false =>
      rw [hmode] at h
      exact ⟨s, by simp [excludeOrbot, hmode], h, rfl, rfl, by simp [orbotFirst, hmode]⟩
  | true =>
      rw [hmode] at h
      cases horbot : p.usesOrbot with
      | false => exact ⟨s, by simp [excludeOrbot, horbot], h, rfl, rfl, by simp [orbotFirst, horbot]⟩
      | true =>
          by_cases hinstalled : ORBOT_PACKAGE_NAME ∈ pm.installed
          · exact ⟨{ s with builder := s.builder.hand true ORBOT_PACKAGE_NAME },
              by simp [excludeOrbot, hmode, horbot, hinstalled, VpnBuilder.addDisallowedApplication_eq h],
              by simp, rfl, rfl, by simp [orbotFirst, hmode, horbot, hinstalled]⟩
          · exact ⟨s.logs .orbotNotInstalled,
              by simp [excludeOrbot, hmode, horbot, hinstalled, VpnBuilder.addDisallowedApplication_eq h],
              h, rfl, rfl, by simp [orbotFirst, hinstalled, Filtering.logs]⟩

theorem exists_allowItself (h : s.builder.Only p.mAllowedAppsVpnAreDisallowed) :
    ∃ t, allowItself pm p s = .ended t ∧ t.builder.Only p.mAllowedAppsVpnAreDisallowed ∧
      t.mAllowedAppsVpn = s.mAllowedAppsVpn ∧
      t.builder.applications p.mAllowedAppsVpnAreDisallowed =
        s.builder.applications p.mAllowedAppsVpnAreDisallowed ++
          if !p.mAllowedAppsVpnAreDisallowed && !s.atLeastOneAllowedApp then [pm.packageName] else [] := by
  cases hmode : p.mAllowedAppsVpnAreDisallowed with
  | true =>
      rw [hmode] at h
      exact ⟨s, by simp [allowItself, hmode], h, rfl, by simp⟩
  | false =>
      rw [hmode] at h
      cases hone : s.atLeastOneAllowedApp with
      | true => exact ⟨s, by simp [allowItself, hone], h, rfl, by simp⟩
      | false =>
          let named := s.logs (.no_allowed_app pm.packageName)
          exact ⟨{ named with builder := s.builder.hand false pm.packageName },
            by simp [allowItself, hmode, hone, Filtering.logs, named, VpnBuilder.addAllowedApplication_eq h,
              pm.packageName_installed],
            by simp, rfl, by simp⟩

/-! ## setAllowedVpnPackages -/

variable (pm p) in
/-- The applications that the builder of the profile's mode has in the end. -/
def named : List Str :=
  let handed := orbotFirst pm p ++ p.mAllowedAppsVpn.elements.filter (hands pm p)
  let noAllowedApp := !p.mAllowedAppsVpnAreDisallowed && !p.mAllowedAppsVpn.elements.any (hands pm p)
  handed ++ if noAllowedApp then [pm.packageName] else []

variable (pm p) in
/-- No package that the handler takes out of the set is followed by another one. -/
def MissingLast : Prop := ∀ pkg ∈ p.mAllowedAppsVpn.elements.dropLast, ¬ misses pm p pkg = true

instance : Decidable (MissingLast pm p) := by unfold MissingLast; infer_instance

/-- The state before Orbot is excluded. -/
def begun (p : AppProfile) : Filtering where
  builder := {}
  mAllowedAppsVpn := p.mAllowedAppsVpn
  log := if p.usesOrbot then [.usesOrbot] else []

theorem only_begun : (begun p).builder.Only p.mAllowedAppsVpnAreDisallowed := by
  cases hmode : p.mAllowedAppsVpnAreDisallowed <;> simp [begun, VpnBuilder.Only]

theorem applications_begun : (begun p).builder.applications p.mAllowedAppsVpnAreDisallowed = [] := by
  cases hmode : p.mAllowedAppsVpnAreDisallowed <;> simp [begun, VpnBuilder.applications]

@[simp] theorem letBypass_mAllowedAppsVpn : (letBypass p s).mAllowedAppsVpn = s.mAllowedAppsVpn := by
  simp only [letBypass]
  split_ifs <;> rfl

@[simp] theorem letBypass_applications {disallowed : Bool} :
    (letBypass p s).builder.applications disallowed = s.builder.applications disallowed := by
  simp only [letBypass]
  split_ifs <;> rfl

theorem only_letBypass {disallowed : Bool} (h : s.builder.Only disallowed) :
    (letBypass p s).builder.Only disallowed := by
  simp only [letBypass]
  split_ifs <;> exact h

variable (pm p) in
/-- What the service leaves where it completes. -/
structure Filtered (t : Filtering) : Prop where
  only : t.builder.Only p.mAllowedAppsVpnAreDisallowed
  applications : t.builder.applications p.mAllowedAppsVpnAreDisallowed = named pm p
  elements : t.mAllowedAppsVpn.elements = p.mAllowedAppsVpn.elements.filter fun pkg => !misses pm p pkg

theorem setAllowedVpnPackages_eq : setAllowedVpnPackages pm p {} =
    (((excludeOrbot pm p (begun p)).andThen (loopPackages pm p)).andThen (allowItself pm p)).andThen fun s =>
      .ended (letBypass p (report p s)) := rfl

theorem exists_filtered (hlast : MissingLast pm p) :
    ∃ t, setAllowedVpnPackages pm p {} = .ended t ∧ Filtered pm p t := by
  obtain ⟨s, hs, honly, hset, hone, happs⟩ := @exists_excludeOrbot pm p _ only_begun
  have hloop := @loopPackages_eq pm p s honly
  have helements : s.mAllowedAppsVpn.elements = p.mAllowedAppsVpn.elements := congrArg FailFast.elements hset
  unfold MissingLast at hlast
  rw [helements, if_pos hlast] at hloop
  have hhandled := @handled_foldl pm p s p.mAllowedAppsVpn.elements honly
  obtain ⟨t, ht, honly', hset', happs'⟩ := @exists_allowItself pm p _ hhandled.only
  refine ⟨letBypass p (report p t), ?_, only_letBypass honly', ?_, ?_⟩
  · rw [setAllowedVpnPackages_eq, hs, Ending.andThen_ended, hloop, Ending.andThen_ended, ht, Ending.andThen_ended]
  · have hany : (List.foldl (turn pm p) s p.mAllowedAppsVpn.elements).atLeastOneAllowedApp =
        (!p.mAllowedAppsVpnAreDisallowed && p.mAllowedAppsVpn.elements.any (hands pm p)) := by
      rw [hhandled.atLeastOneAllowedApp, hone]
      rfl
    rw [letBypass_applications]
    show t.builder.applications p.mAllowedAppsVpnAreDisallowed = named pm p
    rw [happs', hhandled.applications, happs, applications_begun, hany]
    cases hmode : p.mAllowedAppsVpnAreDisallowed <;> simp [named, hmode]
  · rw [letBypass_mAllowedAppsVpn]
    show t.mAllowedAppsVpn.elements = _
    rw [hset', hhandled.elements, helements]
    apply List.filter_congr
    intro pkg hpkg
    simp [hpkg]

/-- A missing package that another one follows ends the loop by the iterator's exception. The first missing package is
then out of the set, and no other one. -/
theorem thrown_of_not_missingLast (hlast : ¬ MissingLast pm p) :
    ∃ t, setAllowedVpnPackages pm p {} = .thrown .concurrentModification t ∧
      t.mAllowedAppsVpn.elements = p.mAllowedAppsVpn.elements.filter fun pkg =>
        !((FailFast.taken (fun pkg => misses pm p pkg = true) p.mAllowedAppsVpn.elements).contains pkg &&
          misses pm p pkg) := by
  obtain ⟨s, hs, honly, hset, -, -⟩ := @exists_excludeOrbot pm p _ only_begun
  have hloop := @loopPackages_eq pm p s honly
  have helements : s.mAllowedAppsVpn.elements = p.mAllowedAppsVpn.elements := congrArg FailFast.elements hset
  unfold MissingLast at hlast
  rw [helements, if_neg hlast] at hloop
  have hhandled := @handled_foldl pm p s
    (FailFast.taken (fun pkg => misses pm p pkg = true) p.mAllowedAppsVpn.elements) honly
  rw [setAllowedVpnPackages_eq, hs, Ending.andThen_ended, hloop, Ending.andThen_thrown, Ending.andThen_thrown]
  exact ⟨_, rfl, helements ▸ hhandled.elements⟩

theorem completes_iff : (∃ t, setAllowedVpnPackages pm p {} = .ended t) ↔ MissingLast pm p := by
  constructor
  · rintro ⟨t, ht⟩
    by_contra hlast
    obtain ⟨u, hu, -⟩ := thrown_of_not_missingLast hlast
    rw [hu] at ht
    cases ht
  · intro hlast
    obtain ⟨t, ht, -⟩ := exists_filtered hlast
    exact ⟨t, ht⟩

/-! ## Uninstalled packages -/

variable (pm p) in
/-- Filtering survives uninstalled packages, but for some that it is not meant to deal with: it hands every installed
package of the set to the builder in the profile's mode, removes exactly the uninstalled ones from the set, and leaves
no builder without an application whose mode is to allow some. -/
structure Survives (exempt : Str → Bool) (t : Filtering) : Prop where
  only : t.builder.Only p.mAllowedAppsVpnAreDisallowed
  handed : ∀ pkg ∈ p.mAllowedAppsVpn.elements, exempt pkg = false → pkg ∈ pm.installed →
    pkg ∈ t.builder.applications p.mAllowedAppsVpnAreDisallowed
  removed : t.mAllowedAppsVpn.elements = p.mAllowedAppsVpn.elements.filter fun pkg => pkg ∈ pm.installed || exempt pkg
  allowed : p.mAllowedAppsVpnAreDisallowed = false → t.builder.applications false ≠ []

theorem Filtered.survives {t : Filtering} (h : Filtered pm p t) : Survives pm p p.skips t where
  only := h.only
  handed := by
    intro pkg hpkg hexempt hinstalled
    rw [h.applications]
    simp [named, hands, hpkg, hexempt, hinstalled]
  removed := by
    rw [h.elements]
    apply List.filter_congr
    intro pkg _
    simp [misses]
  allowed := by
    intro hmode
    have happs := h.applications
    rw [hmode] at happs
    rw [happs]
    cases hany : p.mAllowedAppsVpn.elements.any (hands pm p) with
    | true =>
        obtain ⟨pkg, hpkg, hhands⟩ := List.any_eq_true.mp hany
        apply List.ne_nil_of_mem (a := pkg)
        simp [named, hpkg, hhands]
    | false => simp [named, hmode, hany]

/-- Filtering completes and survives the missing packages, but for Orbot in a tunnel that only some apps are let
into. -/
theorem setAllowedVpnPackages_survives (hlast : MissingLast pm p) :
    ∃ t, setAllowedVpnPackages pm p {} = .ended t ∧ Survives pm p p.skips t := by
  obtain ⟨t, ht, hfiltered⟩ := exists_filtered hlast
  exact ⟨t, ht, hfiltered.survives⟩

/-- A profile that lets some apps into its tunnel, and reaches its server over Orbot. -/
def overOrbot (apps : FailFast Str) : AppProfile where
  mConnections := [{ mProxyType := .ORBOT }]
  mAllowedAppsVpn := apps
  mAllowedAppsVpnAreDisallowed := false

def someInstalled : PackageManager where
  installed := {"own".toList, "a".toList, ORBOT_PACKAGE_NAME}
  packageName := "own".toList
  packageName_installed := by simp

def goneLast : AppProfile := overOrbot ⟨["a".toList, ORBOT_PACKAGE_NAME, "gone".toList], by decide, 0⟩

def goneFirst : AppProfile := overOrbot ⟨["gone".toList, "a".toList], by decide, 0⟩

theorem goneLast_survives : ∃ t, setAllowedVpnPackages someInstalled goneLast {} = .ended t ∧
    Survives someInstalled goneLast goneLast.skips t :=
  setAllowedVpnPackages_survives (by decide)

/-- Orbot is installed and in the set, and is not handed to the builder. An uninstalled app before an installed one ends
the loop by an exception. -/
theorem orbot_left_out :
    (¬ ∃ t, setAllowedVpnPackages someInstalled goneLast {} = .ended t ∧
      Survives someInstalled goneLast (fun _ => false) t) ∧
    ¬ ∃ t, setAllowedVpnPackages someInstalled goneFirst {} = .ended t := by
  constructor
  · rintro ⟨t, ht, hsurvives⟩
    obtain ⟨u, hu, hfiltered⟩ := @exists_filtered someInstalled goneLast (by decide)
    obtain rfl : u = t := by simpa [ht] using hu.symm
    have horbot : ORBOT_PACKAGE_NAME ∈ named someInstalled goneLast :=
      hfiltered.applications ▸ hsurvives.handed ORBOT_PACKAGE_NAME (by decide) rfl (by decide)
    exact absurd horbot (by decide)
  · exact fun h => absurd (completes_iff.mp h) (by decide)

/-! ## The app policy -/

theorem named_of_disallowed (h : p.mAllowedAppsVpnAreDisallowed = true) :
    (named pm p).toFinset = (p.mAllowedAppsVpn.elements.toFinset ∩ pm.installed) ∪
      if p.usesOrbot then {ORBOT_PACKAGE_NAME} ∩ pm.installed else ∅ := by
  ext pkg
  by_cases horbot : p.usesOrbot = true <;> by_cases hinstalled : ORBOT_PACKAGE_NAME ∈ pm.installed <;>
    simp [named, orbotFirst, hands, AppProfile.skips, h, horbot, hinstalled]

theorem named_of_allowed (h : p.mAllowedAppsVpnAreDisallowed = false) :
    let allowed := (p.mAllowedAppsVpn.elements.toFinset ∩ pm.installed).filter fun pkg =>
      !(p.usesOrbot && pkg = ORBOT_PACKAGE_NAME)
    (named pm p).toFinset = if allowed = ∅ then {pm.packageName} else allowed := by
  intro allowed
  have hhands : (p.mAllowedAppsVpn.elements.filter (hands pm p)).toFinset = allowed := by
    ext pkg
    simp [allowed, hands, AppProfile.skips, h]
    tauto
  cases hany : p.mAllowedAppsVpn.elements.any (hands pm p) with
  | true =>
      obtain ⟨pkg, hpkg, hhand⟩ := List.any_eq_true.mp hany
      have hin : pkg ∈ allowed := by rw [← hhands]; simp [hpkg, hhand]
      rw [if_neg (Finset.ne_empty_of_mem hin), ← hhands]
      simp [named, orbotFirst, h, hany]
  | false =>
      have hnone : p.mAllowedAppsVpn.elements.filter (hands pm p) = [] := by
        simpa [List.filter_eq_nil_iff] using hany
      have hempty : allowed = ∅ := by rw [← hhands, hnone]; rfl
      simp [named, orbotFirst, h, hany, hnone, hempty]

/-- The service's builder is the one of the app policy. -/
theorem Filtered.toBuilder_eq {q : ManagedProfile} (h : Filtered pm p t)
    (hset : q.mAllowedAppsVpn = p.mAllowedAppsVpn.elements.toFinset)
    (hmode : q.mAllowedAppsVpnAreDisallowed = p.mAllowedAppsVpnAreDisallowed) :
    t.builder.toBuilder = Restrictions.setAllowedVpnPackages pm.packageName pm.installed p.usesOrbot q := by
  have happs := h.applications
  have hother := h.only.applications_not
  cases hdisallowed : p.mAllowedAppsVpnAreDisallowed with
  | true =>
      rw [hdisallowed] at happs hother
      rw [Bool.not_true] at hother
      simp only [VpnBuilder.toBuilder, Restrictions.setAllowedVpnPackages, hmode, hdisallowed, happs, hother, hset,
        named_of_disallowed hdisallowed, if_true, List.toFinset_nil]
  | false =>
      rw [hdisallowed] at happs hother
      rw [Bool.not_false] at hother
      simp only [VpnBuilder.toBuilder, Restrictions.setAllowedVpnPackages, hmode, hdisallowed, happs, hother, hset,
        named_of_allowed hdisallowed, Bool.false_eq_true, if_false, List.toFinset_nil]

end AllInSafe.Restrictions.OpenVPNService
