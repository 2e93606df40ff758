import AllInSafe.Restrictions.Lemmas.Stores

/-! A whole bundle: its loop over the list, and the managed profiles that it removes. -/

namespace AllInSafe.Restrictions
open AllInSafe.Library AllInSafe.Config

variable {pf : Platform} {restrictions : RestrictionsBundle} {store store' : Store}

/-! ## The loop -/

/-- The complete entries of a list. -/
def complete (profileList : List (Option ProfileBundle)) : List ProfileBundle :=
  profileList.reduceOption.filter fun p => !p.misses

theorem complete_cons_of_misses {profile : Option ProfileBundle} {profileList : List (Option ProfileBundle)}
    (h : ∀ p, profile = some p → p.misses = true) : complete (profile :: profileList) = complete profileList := by
  cases profile with
  | none => rfl
  | some p => simp [complete, List.reduceOption_cons_of_some, h p rfl]

theorem complete_cons {p : ProfileBundle} {profileList : List (Option ProfileBundle)} (h : p.misses = false) :
    complete (some p :: profileList) = p :: complete profileList := by
  simp [complete, List.reduceOption_cons_of_some, h]

theorem importVPNProfile_of_misses {profile : Option ProfileBundle} {v : Import}
    (h : ∀ p, profile = some p → p.misses = true) : importVPNProfile pf v profile = .ok v := by
  cases profile with
  | none => rfl
  | some p => simp [importVPNProfile, h p rfl]

theorem importVPNProfile_ok {p : ProfileBundle} {v v' : Import} (hmisses : p.misses = false)
    (h : importVPNProfile pf v (some p) = .ok v') :
    applyProfile pf p v.store = .ok v'.store ∧ v'.provisionedUuids = p.key :: v.provisionedUuids := by
  simp only [importVPNProfile, hmisses, Bool.false_eq_true, ↓reduceIte, bind, Except.bind, pure, Except.pure] at h
  cases happly : applyProfile pf p v.store with
  | error e => simp [happly] at h
  | ok store =>
      simp only [happly, Except.ok.injEq] at h
      subst h
      exact ⟨rfl, rfl⟩

theorem exists_importVPNProfile {p : ProfileBundle} {v : Import} (hmisses : p.misses = false)
    (h : applyProfile pf p v.store = .ok store') : ∃ v', importVPNProfile pf v (some p) = .ok v' := by
  simp [importVPNProfile, hmisses, h, bind, Except.bind, pure, Except.pure]

theorem loop_cons {profile : Option ProfileBundle} {profileList : List (Option ProfileBundle)} {v v' : Import} :
    (profile :: profileList).foldlM (importVPNProfile pf) v = .ok v' ↔
      ∃ mid, importVPNProfile pf v profile = .ok mid ∧ profileList.foldlM (importVPNProfile pf) mid = .ok v' := by
  simp only [List.foldlM_cons, bind, Except.bind]
  cases importVPNProfile pf v profile with
  | error e => simp
  | ok mid => simp

theorem loop_ok {profileList : List (Option ProfileBundle)} {v v' : Import}
    (h : profileList.foldlM (importVPNProfile pf) v = .ok v') :
    applyAll pf (complete profileList) v.store = .ok v'.store ∧
      ∀ uuid, uuid ∈ v'.provisionedUuids ↔ uuid ∈ v.provisionedUuids ∨ ∃ p ∈ complete profileList, p.key = uuid := by
  induction profileList generalizing v with
  | nil => cases h; simp [complete]
  | cons profile profileList ih =>
      obtain ⟨mid, hmid, hrest⟩ := loop_cons.mp h
      obtain ⟨hall, huuids⟩ := ih hrest
      by_cases hmisses : ∀ p, profile = some p → p.misses = true
      · rw [importVPNProfile_of_misses hmisses] at hmid
        cases hmid
        rw [complete_cons_of_misses hmisses]
        exact ⟨hall, huuids⟩
      · push Not at hmisses
        obtain ⟨p, rfl, hp⟩ := hmisses
        simp only [ne_eq, Bool.not_eq_true] at hp
        obtain ⟨happly, hprovisioned⟩ := importVPNProfile_ok hp hmid
        rw [complete_cons hp]
        refine ⟨applyAll_cons.mpr ⟨_, happly, hall⟩, ?_⟩
        intro uuid
        rw [huuids uuid, hprovisioned, List.exists_mem_cons_iff, List.mem_cons, eq_comm, or_assoc, or_left_comm]

theorem exists_loop {profileList : List (Option ProfileBundle)} {v : Import}
    (h : applyAll pf (complete profileList) v.store = .ok store') :
    ∃ v', profileList.foldlM (importVPNProfile pf) v = .ok v' := by
  induction profileList generalizing v with
  | nil => exact ⟨v, rfl⟩
  | cons profile profileList ih =>
      by_cases hmisses : ∀ p, profile = some p → p.misses = true
      · rw [complete_cons_of_misses hmisses] at h
        obtain ⟨v', hv'⟩ := ih h
        exact ⟨v', loop_cons.mpr ⟨v, importVPNProfile_of_misses hmisses, hv'⟩⟩
      · push Not at hmisses
        obtain ⟨p, rfl, hp⟩ := hmisses
        simp only [ne_eq, Bool.not_eq_true] at hp
        rw [complete_cons hp] at h
        obtain ⟨store, hstore, hall⟩ := applyAll_cons.mp h
        obtain ⟨mid, hmid⟩ := exists_importVPNProfile hp hstore
        obtain ⟨hsame, _⟩ := importVPNProfile_ok hp hmid
        obtain rfl : store = mid.store := Except.ok.inj (hstore.symm.trans hsame)
        obtain ⟨v', hv'⟩ := ih hall
        exact ⟨v', loop_cons.mpr ⟨mid, hmid, hv'⟩⟩

/-! ## The bundle -/

/-- The bundle has a complete entry for the UUID. -/
def Named (restrictions : RestrictionsBundle) (uuid : Str) : Prop := ∃ p ∈ restrictions.entries, p.key = uuid

@[simp] theorem setAlwaysOn_profiles {v : Import} : (setAlwaysOn v).profiles = v.store.profiles := by
  unfold setAlwaysOn
  split_ifs <;> rfl

@[simp] theorem setAlwaysOn_saves {v : Import} : (setAlwaysOn v).saves = v.store.saves := by
  unfold setAlwaysOn
  split_ifs <;> rfl

/-- The result of a bundle: its entries are applied, and of the other profiles the managed ones are removed. -/
structure Applied (pf : Platform) (restrictions : RestrictionsBundle) (store store' : Store) : Prop where
  applied : ∃ mid, applyAll pf restrictions.entries store = .ok mid ∧ store'.saves = mid.saves ∧
    (∀ uuid, Named restrictions uuid → store'.profiles uuid = mid.profiles uuid) ∧
    ∀ uuid, ¬ Named restrictions uuid → store'.profiles uuid = (mid.profiles uuid).filter fun vp => !vp.managed

theorem parseRestrictionsBundle_ok (hversion : restrictions.supported = true)
    (h : parseRestrictionsBundle pf restrictions store = .ok store') : Applied pf restrictions store store' := by
  simp only [parseRestrictionsBundle, hversion, ↓reduceIte, importVPNProfiles, bind, Except.bind, pure, Except.pure] at h
  cases hloop : (restrictions.vpn_configuration_list.getD []).foldlM (importVPNProfile pf)
      { store := store, defaultprofile := restrictions.defaultprofile } with
  | error e => simp [hloop] at h
  | ok v =>
      simp only [hloop, Except.ok.injEq] at h
      subst h
      obtain ⟨hall, huuids⟩ := loop_ok hloop
      refine ⟨v.store, hall, by simp [removeProfiles], ?_, ?_⟩
      · intro uuid hnamed
        have hmem : uuid ∈ v.provisionedUuids := (huuids uuid).mpr (Or.inr hnamed)
        cases hvp : v.store.profiles uuid with
        | none => simp [removeProfiles, hvp]
        | some vp => simp [removeProfiles, hvp, hmem]
      · intro uuid hnamed
        have hmem : uuid ∉ v.provisionedUuids := by
          intro hmem
          rcases (huuids uuid).mp hmem with hnone | hnamed'
          · simp at hnone
          · exact hnamed hnamed'
        simp [removeProfiles, hmem]

theorem exists_parseRestrictionsBundle (hversion : restrictions.supported = true)
    (h : applyAll pf restrictions.entries store = .ok store') :
    ∃ store', parseRestrictionsBundle pf restrictions store = .ok store' := by
  obtain ⟨v, hv⟩ := exists_loop (v := { store := store, defaultprofile := restrictions.defaultprofile }) h
  simp [parseRestrictionsBundle, hversion, importVPNProfiles, bind, Except.bind, pure, Except.pure, hv]

/-! ## UUIDs of profiles -/

/-- Every profile is found under the text of its UUID. -/
def Store.Keyed (pf : Platform) (store : Store) : Prop := ∀ uuid, store.profiles uuid ≠ none → pf.fromString uuid = some uuid

theorem Store.Keyed.put {uuid : Str} {s : Saving} (h : store.Keyed pf) (huuid : pf.fromString uuid = some uuid) :
    (store.put uuid s).Keyed pf := by
  intro uuid' hne
  by_cases hsame : uuid' = uuid
  · rw [hsame]; exact huuid
  · rw [put_profiles_of_ne hsame] at hne
    exact h uuid' hne

theorem Store.Keyed.applyProfile {p : ProfileBundle} (h : store.Keyed pf) (hp : applyProfile pf p store = .ok store') :
    store'.Keyed pf := by
  have happlies : Applies pf p store (.ok store') := hp ▸ applies_applyProfile
  cases happlies with
  | skip vp hvp _ => exact h.put (h p.key (by simp [hvp]))
  | refused _ _ _ => exact h
  | added vpn key _ _ _ hkey => exact h.put (pf.fromString_text _ _ hkey)

theorem Store.Keyed.applyAll {es : List ProfileBundle} (h : store.Keyed pf) (hes : applyAll pf es store = .ok store') :
    store'.Keyed pf := by
  induction es generalizing store with
  | nil => cases hes; exact h
  | cons p es ih =>
      obtain ⟨mid, hp, hrest⟩ := applyAll_cons.mp hes
      exact ih (h.applyProfile hp) hrest

theorem Applied.keyed (h : Applied pf restrictions store store') (hkeyed : store.Keyed pf) : store'.Keyed pf := by
  obtain ⟨mid, hall, _, hnamed, hother⟩ := h.applied
  intro uuid hne
  apply hkeyed.applyAll hall uuid
  by_cases hname : Named restrictions uuid
  · rwa [hnamed uuid hname] at hne
  · intro hnone
    rw [hother uuid hname, hnone] at hne
    exact hne rfl

/-! ## Convergence -/

/-- Applied once more, a bundle saves nothing exactly where all of its entries are quiet. -/
theorem again_iff (hversion : restrictions.supported = true) (h : Applied pf restrictions store store') :
    (∃ store₂, parseRestrictionsBundle pf restrictions store' = .ok store₂ ∧
      store₂.profiles = store'.profiles ∧ store₂.saves = store'.saves) ↔
      ∀ p ∈ restrictions.entries, Quiet pf p (store'.profiles p.key) := by
  constructor
  · rintro ⟨store₂, hparse, _, hsaves⟩
    obtain ⟨mid, hall, hmid, _, _⟩ := (parseRestrictionsBundle_ok hversion hparse).applied
    obtain ⟨saves, happend, hquiet⟩ := applyAll_saves hall
    apply hquiet
    rw [← hmid, hsaves] at happend
    exact List.self_eq_append_right.mp happend
  · intro hquiet
    have hall := applyAll_of_quiet hquiet
    obtain ⟨store₂, hparse⟩ := exists_parseRestrictionsBundle hversion hall
    obtain ⟨mid, hall', hsaves, hnamed, hother⟩ := (parseRestrictionsBundle_ok hversion hparse).applied
    obtain rfl : store' = mid := Except.ok.inj (hall.symm.trans hall')
    refine ⟨store₂, hparse, ?_, hsaves⟩
    funext uuid
    by_cases hname : Named restrictions uuid
    · exact hnamed uuid hname
    · obtain ⟨_, _, _, _, hremoved⟩ := h.applied
      rw [hother uuid hname, hremoved uuid hname, Option.filter_filter]
      simp

end AllInSafe.Restrictions
