import AllInSafe.Restrictions.Lemmas.Settled

/-! All entries of a bundle: every one concerns the profile with its UUID. -/

namespace AllInSafe.Restrictions
open AllInSafe.Library AllInSafe.Config

variable {pf : Platform} {p : ProfileBundle} {store store' : Store} {es : List ProfileBundle}

/-! ## One entry -/

theorem put_profiles_of_ne {uuid uuid' : Str} {s : Saving} (h : uuid' ≠ uuid) :
    (store.put uuid s).profiles uuid' = store.profiles uuid' := Function.update_of_ne h _ _

theorem put_self {uuid : Str} {vp : ManagedProfile} (h : store.profiles uuid = some vp) : store.put uuid ⟨vp, []⟩ = store := by
  obtain ⟨profiles, saves, alwaysOnVpn⟩ := store
  simp only at h
  simp [Store.put, ← h]

/-- What an entry does: its alias for a profile with its hash, and otherwise what the conversion comes to. -/
inductive Applies (pf : Platform) (p : ProfileBundle) (store : Store) : Except Throwable Store → Prop
  | skip (vp : ManagedProfile) (hvp : store.profiles p.key = some vp) (hash : HasHash (p.hash pf) (store.profiles p.key)) :
      Applies pf p store (.ok (store.put p.key (addCertificateAlias p.certificate_alias ⟨vp, []⟩)))
  | throws (e : Throwable) (hash : ¬ HasHash (p.hash pf) (store.profiles p.key)) (hthrows : p.throws pf = true) :
      Applies pf p store (.error e)
  | refused (hash : ¬ HasHash (p.hash pf) (store.profiles p.key)) (hthrows : p.throws pf = false)
      (haccepted : p.accepted pf = none) : Applies pf p store (.ok store)
  | added (vpn : VpnProfile) (key : Str) (hash : ¬ HasHash (p.hash pf) (store.profiles p.key))
      (hthrows : p.throws pf = false) (haccepted : p.accepted pf = some vpn) (hkey : pf.fromString p.key = some key) :
      Applies pf p store (.ok (store.put key (configure p (store.profiles p.key)
        (Saving.save ⟨provisioned vpn (p.name.getD []) (p.hash pf) (store.profiles p.key), []⟩))))

theorem applies_importProfile (hash : ¬ HasHash (p.hash pf) (store.profiles p.key)) :
    Applies pf p store (importProfile pf p p.key (p.ovpn.getD []) (p.name.getD []) (p.hash pf)
      (store.profiles p.key) store) := by
  unfold importProfile addProfile
  cases hconvert : pf.convertProfile (prepare pf (p.ovpn.getD [])) with
  | error e =>
      cases hcaught : caught e with
      | true =>
          simp only [hcaught, ↓reduceIte]
          exact .refused hash (by simp [ProfileBundle.throws, hconvert, hcaught])
            (by simp [ProfileBundle.accepted, hconvert])
      | false =>
          simp only [hcaught, Bool.false_eq_true, ↓reduceIte]
          exact .throws e hash (by simp [ProfileBundle.throws, hconvert, hcaught])
  | ok vpn =>
      cases hkey : pf.fromString p.key with
      | none =>
          exact .refused hash (by simp [ProfileBundle.throws, hconvert])
            (by simp [ProfileBundle.accepted, hconvert, hkey])
      | some key =>
          exact .added vpn key hash (by simp [ProfileBundle.throws, hconvert])
            (by simp [ProfileBundle.accepted, hconvert, hkey]) hkey

theorem applies_applyProfile : Applies pf p store (applyProfile pf p store) := by
  unfold applyProfile
  cases hvp : store.profiles p.key with
  | none =>
      have hash : ¬ HasHash (p.hash pf) (store.profiles p.key) := by simp [HasHash, hvp]
      have happlies := applies_importProfile hash
      rwa [hvp] at happlies
  | some vp =>
      simp only
      split_ifs with hsame
      · exact .skip vp hvp (by simp [HasHash, hvp, hsame])
      · have hash : ¬ HasHash (p.hash pf) (store.profiles p.key) := by simp [HasHash, hvp, hsame]
        have happlies := applies_importProfile hash
        rwa [hvp] at happlies

/-- An entry with a UUID in its standard form does to the profile what `applyToKey` says, and nothing to another. -/
theorem applyProfile_ok (hstandard : (p.accepted pf).isSome → pf.fromString p.key = some p.key)
    (h : applyProfile pf p store = .ok store') :
    applyToKey pf p (store.profiles p.key) = some (store'.profiles p.key) ∧
      ∀ uuid, uuid ≠ p.key → store'.profiles uuid = store.profiles uuid := by
  have happlies : Applies pf p store (.ok store') := h ▸ applies_applyProfile
  cases happlies with
  | skip vp hvp hash =>
      refine ⟨?_, fun uuid hne => put_profiles_of_ne hne⟩
      rw [applyToKey, if_pos hash, put_profiles_self, hvp]
      rfl
  | refused hash hthrows haccepted =>
      refine ⟨?_, fun _ _ => rfl⟩
      simp [applyToKey, hash, hthrows, haccepted]
  | added vpn key hash hthrows haccepted hkey =>
      obtain rfl : p.key = key := by
        have hsame := hstandard (by simp [haccepted])
        rw [hsame] at hkey
        exact Option.some.inj hkey
      refine ⟨?_, fun uuid hne => put_profiles_of_ne hne⟩
      simp [applyToKey, hash, hthrows, haccepted, freshProfile]

theorem exists_applyProfile {q' : Option ManagedProfile} (h : applyToKey pf p (store.profiles p.key) = some q') :
    ∃ store', applyProfile pf p store = .ok store' := by
  have happlies : Applies pf p store (applyProfile pf p store) := applies_applyProfile
  cases hresult : applyProfile pf p store with
  | ok store' => exact ⟨store', rfl⟩
  | error e =>
      rw [hresult] at happlies
      cases happlies with
      | throws _ hash hthrows => simp [applyToKey, hash, hthrows] at h

theorem applyProfile_of_quiet (h : Quiet pf p (store.profiles p.key)) : applyProfile pf p store = .ok store := by
  have happlies : Applies pf p store (applyProfile pf p store) := applies_applyProfile
  unfold Quiet at h
  generalize applyProfile pf p store = result at happlies
  cases happlies with
  | skip vp hvp hash =>
      rw [if_pos hash] at h
      rw [addCertificateAlias_of_eq (h vp hvp), put_self hvp]
  | throws e hash hthrows => simp [hash, hthrows] at h
  | refused hash hthrows haccepted => rfl
  | added vpn key hash hthrows haccepted hkey => simp [hash, haccepted] at h

/-! ## What is saved -/

theorem addCertificateAlias_saves {certAlias : Option Str} {s : Saving} (h : s.saves ≠ []) :
    (addCertificateAlias certAlias s).saves ≠ [] := by
  simp only [addCertificateAlias]
  split_ifs <;> simp [Saving.save, Saving.map, h]

theorem configure_saves {q : Option ManagedProfile} {s : Saving} (h : s.saves ≠ []) : (configure p q s).saves ≠ [] := by
  have hupdate : ∀ (allowedApps : Option Str) (s : Saving), s.saves ≠ [] → (updateAllowedApps allowedApps s).saves ≠ [] := by
    intro allowedApps s hs
    cases allowedApps with
    | none => exact hs
    | some apps =>
        simp only [updateAllowedApps]
        split_ifs <;> simp [Saving.save, Saving.map, hs]
  have hkeep : ∀ (allowedApps : Option Str) (old : Option (Finset Str)) (s : Saving), s.saves ≠ [] →
      (keepAllowedApps allowedApps old s).saves ≠ [] := by
    intro allowedApps old s hs
    cases old with
    | none => exact hs
    | some old =>
        simp only [keepAllowedApps]
        split_ifs <;> simp [Saving.save, Saving.map, hs]
  exact hkeep _ _ _ (hupdate _ _ (addCertificateAlias_saves h))

/-- What changes a profile is saved. -/
theorem applyProfile_saves (h : applyProfile pf p store = .ok store') :
    ∃ saves, store'.saves = store.saves ++ saves ∧ (saves = [] → store' = store ∧ Quiet pf p (store.profiles p.key)) := by
  have happlies : Applies pf p store (.ok store') := h ▸ applies_applyProfile
  cases happlies with
  | skip vp hvp hash =>
      refine ⟨_, rfl, ?_⟩
      intro hnone
      by_cases hsame : withAlias p.certificate_alias vp = vp
      · rw [addCertificateAlias_of_eq hsame, put_self hvp, Quiet, if_pos hash]
        refine ⟨rfl, ?_⟩
        intro vp' hvp'
        obtain rfl : vp = vp' := Option.some.inj (hvp.symm.trans hvp')
        exact hsame
      · rw [addCertificateAlias_of_ne hsame] at hnone
        simp [Saving.save] at hnone
  | refused hash hthrows haccepted =>
      refine ⟨[], by simp, fun _ => ⟨rfl, ?_⟩⟩
      simp [Quiet, hash, hthrows, haccepted]
  | added vpn key hash hthrows haccepted hkey =>
      refine ⟨_, rfl, ?_⟩
      intro hnone
      exact absurd hnone (configure_saves (by simp [Saving.save]))

/-! ## All entries -/

def applyAll (pf : Platform) (es : List ProfileBundle) (store : Store) : Except Throwable Store :=
  es.foldlM (fun store p => applyProfile pf p store) store

@[simp] theorem applyAll_nil : applyAll pf [] store = .ok store := rfl

theorem applyAll_cons : applyAll pf (p :: es) store = .ok store' ↔
    ∃ mid, applyProfile pf p store = .ok mid ∧ applyAll pf es mid = .ok store' := by
  simp only [applyAll, List.foldlM_cons, bind, Except.bind]
  cases applyProfile pf p store with
  | error e => simp
  | ok mid => simp

theorem applyAll_ok (hstandard : ∀ p ∈ es, (p.accepted pf).isSome → pf.fromString p.key = some p.key)
    (h : applyAll pf es store = .ok store') (uuid : Str) :
    applyAllToKey pf (es.filter fun p => p.key = uuid) (store.profiles uuid) = some (store'.profiles uuid) := by
  induction es generalizing store with
  | nil => cases h; rfl
  | cons p es ih =>
      rw [List.forall_mem_cons] at hstandard
      obtain ⟨mid, hp, hes⟩ := applyAll_cons.mp h
      obtain ⟨hkey, hother⟩ := applyProfile_ok hstandard.1 hp
      by_cases huuid : p.key = uuid
      · rw [List.filter_cons_of_pos (by simp [huuid])]
        subst huuid
        exact applyAllToKey_cons.mpr ⟨_, hkey, ih hstandard.2 hes⟩
      · rw [List.filter_cons_of_neg (by simp [huuid]), ← hother uuid (Ne.symm huuid)]
        exact ih hstandard.2 hes

theorem exists_applyAll (hstandard : ∀ p ∈ es, (p.accepted pf).isSome → pf.fromString p.key = some p.key)
    (h : ∀ uuid, ∃ q', applyAllToKey pf (es.filter fun p => p.key = uuid) (store.profiles uuid) = some q') :
    ∃ store', applyAll pf es store = .ok store' := by
  induction es generalizing store with
  | nil => exact ⟨store, rfl⟩
  | cons p es ih =>
      rw [List.forall_mem_cons] at hstandard
      obtain ⟨q', hq'⟩ := h p.key
      rw [List.filter_cons_of_pos (by simp)] at hq'
      obtain ⟨q₁, hq₁, hrest⟩ := applyAllToKey_cons.mp hq'
      obtain ⟨mid, hmid⟩ := exists_applyProfile hq₁
      obtain ⟨hkey, hother⟩ := applyProfile_ok hstandard.1 hmid
      have hnext : ∀ uuid, ∃ q', applyAllToKey pf (es.filter fun p => p.key = uuid) (mid.profiles uuid) = some q' := by
        intro uuid
        by_cases huuid : p.key = uuid
        · subst huuid
          obtain rfl : mid.profiles p.key = q₁ := Option.some.inj (hkey.symm.trans hq₁)
          exact ⟨q', hrest⟩
        · have huuid' := h uuid
          rw [List.filter_cons_of_neg (by simp [huuid]), ← hother uuid (Ne.symm huuid)] at huuid'
          exact huuid'
      obtain ⟨store', hstore'⟩ := ih hstandard.2 hnext
      exact ⟨store', applyAll_cons.mpr ⟨mid, hmid, hstore'⟩⟩

theorem applyAll_of_quiet (h : ∀ p ∈ es, Quiet pf p (store.profiles p.key)) : applyAll pf es store = .ok store := by
  induction es with
  | nil => rfl
  | cons p es ih =>
      rw [List.forall_mem_cons] at h
      exact applyAll_cons.mpr ⟨store, applyProfile_of_quiet h.1, ih h.2⟩

theorem applyAll_saves (h : applyAll pf es store = .ok store') :
    ∃ saves, store'.saves = store.saves ++ saves ∧ (saves = [] → ∀ p ∈ es, Quiet pf p (store.profiles p.key)) := by
  induction es generalizing store with
  | nil => cases h; exact ⟨[], by simp⟩
  | cons p es ih =>
      obtain ⟨mid, hp, hes⟩ := applyAll_cons.mp h
      obtain ⟨saves, hsaves, hquiet⟩ := applyProfile_saves hp
      obtain ⟨saves', hsaves', hquiet'⟩ := ih hes
      refine ⟨saves ++ saves', by rw [hsaves', hsaves, List.append_assoc], ?_⟩
      intro hnone
      obtain ⟨hnil, hnil'⟩ := List.append_eq_nil_iff.mp hnone
      obtain ⟨rfl, hp'⟩ := hquiet hnil
      exact List.forall_mem_cons.mpr ⟨hp', hquiet' hnil'⟩

end AllInSafe.Restrictions
