import AllInSafe.Restrictions.Lemmas.Bundles

/-!
# Managed updates
-/

namespace AllInSafe.Restrictions
open AllInSafe.Library AllInSafe.Config

variable {pf : Platform}

/-! ## The app policy -/

/-- In a sequence of bundles and of choices of the user, every entry without apps keeps the policy of the managed
profile that it replaces exactly when every profile so replaced names the apps outside of the tunnel. -/
theorem policy_kept_iff {store : Store} {es : List Event} :
    (provisioning pf).StepsMeet (Event.EntriesMeet pf (KeepsPolicy pf)) store es ↔
      (provisioning pf).StepsMeet (Event.EntriesMeet pf (ReplacesDisallowed pf)) store es := by
  have hgood : KeepsPolicy pf = ReplacesDisallowed pf := by
    funext store p
    exact propext keepsPolicy_iff
  rw [hgood]

/-- The form of a UUID with its lower-case digits. -/
def uuidText (s : Str) : Option Str :=
  if s.length = 36 && s.zipIdx.all fun e =>
      if e.2 ∈ [8, 13, 18, 23] then e.1 = '-' else e.1.isDigit || e.1 ∈ ['a', 'b', 'c', 'd', 'e', 'f']
  then some s else none

theorem uuidText_self {s k : Str} (h : uuidText s = some k) : uuidText k = some k := by
  unfold uuidText at h
  split_ifs at h with hs
  cases h
  exact if_pos hs

def firstConfig : Str := "client\nremote vpn.example.com 1194\n"

def secondConfig : Str := "client\nremote vpn2.example.com 1194\n"

def mail : Str := "com.example.mail"

def game : Str := "com.example.game"

/-- The digests of the configurations that are used here. -/
def digests : List (Str × Str) :=
  [(firstConfig ++ mail, "1b63221da47ebec316557b213178888a005930e8"),
    (firstConfig, "fa47b4bae67cf37363ce45c47a0a88cdc6149bdb"),
    (secondConfig, "2e218adad638c7d8a28c65593dac5c95d41718d4")]

def sample : Platform where
  sha1 bytes := ((digests.find? fun e => Utf8.encode e.1 = bytes).map Prod.snd).getD []
  base64 _ := none
  fromString := uuidText
  fromString_text _ _ := uuidText_self
  convertProfile text := importConfig ⟨id, fun _ => List.Perm.refl _, fun _ => none⟩ { text := text }

def sampleUuid : Str := "0123abcd-0000-4000-8000-000000000001"

def sampleEntry (ovpn : Str) (allowed_apps : Option Str) : ProfileBundle where
  uuid := some sampleUuid
  ovpn := some ovpn
  name := some "work"
  allowed_apps := allowed_apps

def sampleBundle (entries : List ProfileBundle) : RestrictionsBundle where
  version := some "1"
  vpn_configuration_list := some (entries.map some)

def openvpn : Str := "de.blinkt.openvpn"

/-- The hash of the profile, and which of three installed apps go through its tunnel. -/
def sampleThrough (store : Store) : Option (Option Str × Finset Str) :=
  (store.profiles sampleUuid).map fun p =>
    (p.importedProfileHash, appsThroughVpn openvpn {openvpn, mail, game} false p)

/-- The first bundle sends only the mail through the tunnel. The second one changes the configuration and names no
apps: all but the mail go through the tunnel. -/
theorem policy_inverted :
    ((provisioning sample).runFrom (provisioning sample).init
        [.bundle (sampleBundle [sampleEntry firstConfig (some mail)])]).bind sampleThrough =
      some (some "1b63221da47ebec316557b213178888a005930e8".toList, {mail}) ∧
    ((provisioning sample).runFrom (provisioning sample).init
        [.bundle (sampleBundle [sampleEntry firstConfig (some mail)]),
          .bundle (sampleBundle [sampleEntry secondConfig none])]).bind sampleThrough =
      some (some "2e218adad638c7d8a28c65593dac5c95d41718d4".toList, {openvpn, game}) := by
  decide +kernel

/-! ## Convergence -/

/-- The bundle has a complete entry with the key of each of its entries. -/
theorem named_key {restrictions : RestrictionsBundle} {p : ProfileBundle} (hp : p ∈ restrictions.entries) :
    Named restrictions p.key := ⟨p, hp, rfl⟩

theorem Converged.of_settled {restrictions : RestrictionsBundle} {store : Store} (hversion : restrictions.supported = true)
    (h : ∀ uuid, Settled pf (store.profiles uuid) (restrictions.entriesOf uuid)) :
    ∃ store', parseRestrictionsBundle pf restrictions store = .ok store' ∧ Converged pf restrictions store store' := by
  have hstandard : ∀ p ∈ restrictions.entries, (p.accepted pf).isSome → pf.fromString p.key = some p.key := by
    intro p hp
    exact (h p.key).standard p (by simp [RestrictionsBundle.entriesOf, hp])
  have hkey : ∀ uuid, ConvergedKey pf (store.profiles uuid) (restrictions.entriesOf uuid) :=
    fun uuid => (h uuid).converged
  obtain ⟨mid, hall⟩ : ∃ mid, applyAll pf restrictions.entries store = .ok mid := by
    apply exists_applyAll hstandard
    intro uuid
    obtain ⟨q', hrun, _⟩ := hkey uuid
    exact ⟨q', hrun⟩
  obtain ⟨store', hparse⟩ := exists_parseRestrictionsBundle hversion hall
  have happlied := parseRestrictionsBundle_ok hversion hparse
  obtain ⟨mid', hall', _, hnamed, hother⟩ := happlied.applied
  obtain rfl : mid = mid' := Except.ok.inj (hall.symm.trans hall')
  have hkeys : ∀ p ∈ restrictions.entries,
      (∀ vpn, p.accepted pf = some vpn → ∃ vp, store'.profiles p.key = some vp ∧ Carries p vpn vp) ∧
        Quiet pf p (store'.profiles p.key) := by
    intro p hp
    have hmem : p ∈ restrictions.entriesOf p.key := by simp [RestrictionsBundle.entriesOf, hp]
    obtain ⟨q', hrun, hcarries, hquiet⟩ := hkey p.key
    obtain rfl : q' = mid.profiles p.key := Option.some.inj (hrun.symm.trans (applyAll_ok hstandard hall p.key))
    rw [hnamed p.key (named_key hp)]
    exact ⟨hcarries p hmem, hquiet p hmem⟩
  refine ⟨store', hparse, ?_, ?_, ?_⟩
  · intro p hp vpn hacc _
    exact (hkeys p hp).1 vpn hacc
  · exact (again_iff hversion happlied).mpr fun p hp => (hkeys p hp).2
  · intro uuid vp hvp hmanaged hnone
    have hname : ¬ Named restrictions uuid := by
      rintro ⟨p, hp, hpkey⟩
      exact hnone p hp hpkey
    have hnil : (restrictions.entries.filter fun p => p.key = uuid) = [] := by
      simpa [List.filter_eq_nil_iff] using hnone
    have hsame := applyAll_ok hstandard hall uuid
    rw [hnil, applyAllToKey_nil, Option.some.injEq] at hsame
    rw [hother uuid hname, ← hsame, hvp]
    simp [hmanaged]

theorem Converged.settled {restrictions : RestrictionsBundle} {store store' : Store}
    (hversion : restrictions.supported = true) (hkeyed : store.Keyed pf)
    (hparse : parseRestrictionsBundle pf restrictions store = .ok store') (h : Converged pf restrictions store store')
    (uuid : Str) : Settled pf (store.profiles uuid) (restrictions.entriesOf uuid) := by
  have happlied := parseRestrictionsBundle_ok hversion hparse
  have hquiet := (again_iff hversion happlied).mp h.again
  have hstandard : ∀ p ∈ restrictions.entries, (p.accepted pf).isSome → pf.fromString p.key = some p.key := by
    intro p hp hacc
    apply happlied.keyed hkeyed p.key
    intro hnone
    have hhash := (hquiet p hp).hasHash hacc
    simp [HasHash, hnone] at hhash
  obtain ⟨mid, hall, _, hnamed, _⟩ := happlied.applied
  have hentries : ∀ p ∈ restrictions.entriesOf uuid, p ∈ restrictions.entries ∧ p.key = uuid := by
    intro p hp
    simpa [RestrictionsBundle.entriesOf] using hp
  apply ConvergedKey.settled
  · intro p hp
    exact hstandard p (hentries p hp).1
  · refine ⟨_, applyAll_ok hstandard hall uuid, ?_, ?_⟩
    · intro p hp vpn hacc
      obtain ⟨hmem, rfl⟩ := hentries p hp
      rw [← hnamed p.key (named_key hmem)]
      exact h.applied p hmem vpn hacc (hstandard p hmem (by simp [hacc]))
    · intro p hp
      obtain ⟨hmem, rfl⟩ := hentries p hp
      rw [← hnamed p.key (named_key hmem)]
      exact hquiet p hmem

/-- A bundle converges exactly when, for every UUID, its entries agree with each other and with the stored profile
that has their hash. -/
theorem converged_iff {restrictions : RestrictionsBundle} {store : Store} (hversion : restrictions.supported = true)
    (hkeyed : store.Keyed pf) :
    (∃ store', parseRestrictionsBundle pf restrictions store = .ok store' ∧ Converged pf restrictions store store') ↔
      ∀ uuid, Settled pf (store.profiles uuid) (restrictions.entriesOf uuid) := by
  constructor
  · rintro ⟨store', hparse, h⟩
    exact h.settled hversion hkeyed hparse
  · exact Converged.of_settled hversion

/-- One entry for a UUID whose profile, if there is one, has another hash. -/
theorem settled_singleton {p : ProfileBundle} {q : Option ManagedProfile} (hstandard : pf.fromString p.key = some p.key)
    (hthrows : p.throws pf = false) (hother : ¬ HasHash (p.hash pf) q) : Settled pf q [p] := by
  have hsplit : ∀ {pre : List ProfileBundle} {w : ProfileBundle} {post : List ProfileBundle},
      [p] = pre ++ w :: post → w = p := by
    intro pre w post hes
    exact List.mem_singleton.mp (by rw [hes]; simp)
  refine ⟨?_, ?_, ?_, ?_, ?_, ?_, ?_⟩
  · simp [hstandard]
  · simp
  · intro v hv w hw vpn vpn' hvacc hwacc
    obtain rfl := List.mem_singleton.mp hv
    obtain rfl := List.mem_singleton.mp hw
    rw [Option.some.inj (hvacc.symm.trans hwacc)]
  · simp
  · intro v hv vpn _ vp hvp hhash
    obtain rfl := List.mem_singleton.mp hv
    subst hvp
    exact absurd hhash hother
  · intro pre w post hes _ _ _ v hv _ _
    rw [hsplit hes, List.mem_singleton.mp hv]
  · intro pre t post hes hthrow
    rw [hsplit hes, hthrows] at hthrow
    cases hthrow

def homeUuid : Str := "0123abcd-0000-4000-8000-000000000002"

def homeEntry : ProfileBundle where
  uuid := some homeUuid
  ovpn := some firstConfig
  name := some "home"
  allowed_apps := some mail

/-- A managed profile with the first configuration. -/
def provisionedStore : Store where
  profiles := Function.update (fun _ => none) sampleUuid
    (some
      { vpn := { mName := "work" }
        mAlias := some []
        mVersion := 1
        mUserEditable := false
        mProfileCreator := some PROFILE_CREATOR
        importedProfileHash := some "fa47b4bae67cf37363ce45c47a0a88cdc6149bdb" })

/-- A changed configuration for the stored profile, and a new entry with its apps. -/
theorem converged_iff_sampleEntry :
    ∃ store', parseRestrictionsBundle sample (sampleBundle [sampleEntry secondConfig none, homeEntry]) provisionedStore =
        .ok store' ∧
      Converged sample (sampleBundle [sampleEntry secondConfig none, homeEntry]) provisionedStore store' := by
  have hentries : (sampleBundle [sampleEntry secondConfig none, homeEntry]).entries =
      [sampleEntry secondConfig none, homeEntry] := by decide
  have hwork : (sampleEntry secondConfig none).key = sampleUuid := by decide
  have hhome : homeEntry.key = homeUuid := by decide
  have hkeyed : provisionedStore.Keyed sample := by
    intro uuid hne
    by_cases huuid : uuid = sampleUuid
    · rw [huuid]
      decide
    · simp [provisionedStore, huuid] at hne
  refine (converged_iff (by decide) hkeyed).mpr fun uuid => ?_
  rw [RestrictionsBundle.entriesOf, hentries]
  by_cases huuid : uuid = sampleUuid
  · subst huuid
    exact settled_singleton (by decide) (by decide +kernel) (by decide +kernel)
  · have hnone : provisionedStore.profiles uuid = none := by simp [provisionedStore, huuid]
    rw [hnone, List.filter_cons_of_neg (by simp [hwork, Ne.symm huuid])]
    by_cases huuid' : uuid = homeUuid
    · subst huuid'
      exact settled_singleton (by decide) (by decide +kernel) (by simp [HasHash])
    · rw [List.filter_cons_of_neg (by simp [hhome, Ne.symm huuid']), List.filter_nil]
      exact ⟨by simp, by simp, by simp, by simp, by simp, by simp, by simp⟩

/-- An entry whose name alone was changed is skipped, since its hash is the same. Two entries with one UUID are saved
again whenever the bundle is applied. -/
theorem bundle_not_converged :
    ((sampleEntry firstConfig none).accepted sample).isSome = true ∧
    ((provisioning sample).runFrom (provisioning sample).init
        [.bundle (sampleBundle [sampleEntry firstConfig none]),
          .bundle (sampleBundle [{ sampleEntry firstConfig none with name := some "office" }])]).bind
        (fun store => (store.profiles sampleUuid).map fun vp => vp.vpn.mName) = some "work".toList ∧
    ((provisioning sample).runFrom (provisioning sample).init
        [.bundle (sampleBundle [sampleEntry firstConfig none, sampleEntry secondConfig none])]).map
        (fun store => store.saves.length) = some 5 ∧
    ((provisioning sample).runFrom (provisioning sample).init
        [.bundle (sampleBundle [sampleEntry firstConfig none, sampleEntry secondConfig none]),
          .bundle (sampleBundle [sampleEntry firstConfig none, sampleEntry secondConfig none])]).map
        (fun store => store.saves.length) = some 11 := by
  decide +kernel

end AllInSafe.Restrictions
