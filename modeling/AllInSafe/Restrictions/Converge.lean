import AllInSafe.Restrictions.Policy

/-!
# Bundles that converge

What a bundle should make of the profiles, and when the entries for one UUID do so.
-/

namespace AllInSafe.Restrictions
open AllInSafe.Library AllInSafe.Config

/-! ## Entries -/

/-- The entries with a UUID, a configuration and a name. -/
def RestrictionsBundle.entries (restrictions : RestrictionsBundle) : List ProfileBundle :=
  (restrictions.vpn_configuration_list.getD []).reduceOption.filter fun p => !p.misses

def RestrictionsBundle.entriesOf (uuid : Str) (restrictions : RestrictionsBundle) : List ProfileBundle :=
  restrictions.entries.filter fun p => p.key = uuid

namespace ProfileBundle
variable (pf : Platform)

/-- The configuration of an entry whose UUID can be read. -/
def accepted (p : ProfileBundle) : Option VpnProfile :=
  match pf.convertProfile (prepare pf (p.ovpn.getD [])) with
  | .ok vpn => if (pf.fromString p.key).isSome then some vpn else none
  | .error _ => none

/-- The conversion throws what `addProfile` does not catch. -/
def throws (p : ProfileBundle) : Bool :=
  match pf.convertProfile (prepare pf (p.ovpn.getD [])) with
  | .ok _ => false
  | .error e => !caught e

/-- The configuration under the name of the entry, with the authentication type for its alias. -/
def target (p : ProfileBundle) (vpn : VpnProfile) : VpnProfile :=
  (withAlias p.certificate_alias { vpn := { vpn with mName := p.name.getD [] } }).vpn

def apps (p : ProfileBundle) : Finset Str := packages (p.allowed_apps.getD [])

end ProfileBundle

/-- Name and configuration, alias and, where the entry names some, the allowed apps of a profile are the entry's. -/
structure Carries (p : ProfileBundle) (vpn : VpnProfile) (vp : ManagedProfile) : Prop where
  vpn : vp.vpn = p.target vpn
  mAlias : vp.mAlias = some (p.certificate_alias.getD [])
  apps : p.apps ≠ ∅ → vp.mAllowedAppsVpn = p.apps ∧ vp.mAllowedAppsVpnAreDisallowed = false

variable (pf : Platform)

/-- Every accepted entry with a UUID in its standard form has its profile, the same bundle changes and saves nothing
when it is applied again, and what is neither managed nor named stays what it was. -/
structure Converged (restrictions : RestrictionsBundle) (store store' : Store) : Prop where
  applied : ∀ p ∈ restrictions.entries, ∀ vpn, p.accepted pf = some vpn → pf.fromString p.key = some p.key →
    ∃ vp, store'.profiles p.key = some vp ∧ Carries p vpn vp
  again : ∃ store₂, parseRestrictionsBundle pf restrictions store' = .ok store₂ ∧
    store₂.profiles = store'.profiles ∧ store₂.saves = store'.saves
  untouched : ∀ uuid vp, store.profiles uuid = some vp → vp.managed = false →
    (∀ p ∈ restrictions.entries, p.key ≠ uuid) → store'.profiles uuid = some vp

/-! ## One UUID -/

/-- The profile carries a hash. -/
def HasHash (hash : Str) (q : Option ManagedProfile) : Prop := q.bind ManagedProfile.importedProfileHash = some hash

instance (hash : Str) (q : Option ManagedProfile) : Decidable (HasHash hash q) := inferInstanceAs (Decidable (_ = _))

/-- The hash that the profile has after all entries. -/
def FinalHash (q : Option ManagedProfile) (es : List ProfileBundle) (hash : Str) : Prop :=
  (∃ v ∈ es, (v.accepted pf).isSome ∧ v.hash pf = hash) ∨ (∀ v ∈ es, v.accepted pf = none) ∧ HasHash hash q

/-- The entries for a UUID agree with each other and with the profile that has their hash. -/
structure Settled (q : Option ManagedProfile) (es : List ProfileBundle) : Prop where
  /-- A UUID in another form than the standard one is looked for in vain. -/
  standard : ∀ v ∈ es, (v.accepted pf).isSome → pf.fromString v.key = some v.key
  hash : ∀ v ∈ es, ∀ w ∈ es, (v.accepted pf).isSome → (w.accepted pf).isSome → v.hash pf = w.hash pf
  target : ∀ v ∈ es, ∀ w ∈ es, ∀ vpn vpn', v.accepted pf = some vpn → w.accepted pf = some vpn' →
    v.target vpn = w.target vpn'
  certAlias : ∀ v ∈ es, ∀ w ∈ es, FinalHash pf q es (v.hash pf) → w.hash pf = v.hash pf →
    v.certificate_alias.getD [] = w.certificate_alias.getD []
  /-- A profile that already has the hash of an accepted entry carries this entry. -/
  stored : ∀ v ∈ es, ∀ vpn, v.accepted pf = some vpn → ∀ vp, q = some vp → vp.importedProfileHash = some (v.hash pf) →
    (withAlias v.certificate_alias vp).vpn = v.target vpn ∧
      (v.apps ≠ ∅ → vp.mAllowedAppsVpn = v.apps ∧ vp.mAllowedAppsVpnAreDisallowed = false)
  /-- The first accepted entry sets the apps where the profile does not have its hash. -/
  apps : ∀ pre w post, es = pre ++ w :: post → (w.accepted pf).isSome → (∀ v ∈ pre, v.accepted pf = none) →
    ¬ HasHash (w.hash pf) q → ∀ v ∈ es, (v.accepted pf).isSome → v.apps ≠ ∅ → v.apps = w.apps
  /-- An entry that throws stands behind the hash that it has itself. -/
  throws : ∀ pre t post, es = pre ++ t :: post → t.throws pf = true →
    (∀ v ∈ es, (v.accepted pf).isSome → v.hash pf = t.hash pf) ∧
      ((∃ v ∈ pre, (v.accepted pf).isSome) ∨ HasHash (t.hash pf) q)

/-- The new profile of an accepted entry. -/
def freshProfile (p : ProfileBundle) (vpn : VpnProfile) (q : Option ManagedProfile) : ManagedProfile :=
  (configure p q (Saving.save ⟨provisioned vpn (p.name.getD []) (p.hash pf) q, []⟩)).profile

/-- What an entry makes of the profile with its UUID; `none` where it throws. -/
def applyToKey (p : ProfileBundle) (q : Option ManagedProfile) : Option (Option ManagedProfile) :=
  if HasHash (p.hash pf) q then some (q.map fun vp => (addCertificateAlias p.certificate_alias ⟨vp, []⟩).profile)
  else if p.throws pf then none
  else match p.accepted pf with
    | none => some q
    | some vpn => some (some (freshProfile pf p vpn q))

def applyAllToKey (es : List ProfileBundle) (q : Option ManagedProfile) : Option (Option ManagedProfile) :=
  es.foldlM (fun q p => applyToKey pf p q) q

/-- The entry neither changes nor saves the profile. -/
def Quiet (p : ProfileBundle) (q : Option ManagedProfile) : Prop :=
  if HasHash (p.hash pf) q then ∀ vp, q = some vp → withAlias p.certificate_alias vp = vp
  else p.throws pf = false ∧ p.accepted pf = none

/-- Once the entries for a UUID are applied, all of them are carried and quiet. -/
def ConvergedKey (q : Option ManagedProfile) (es : List ProfileBundle) : Prop :=
  ∃ q', applyAllToKey pf es q = some q' ∧
    (∀ p ∈ es, ∀ vpn, p.accepted pf = some vpn → ∃ vp, q' = some vp ∧ Carries p vpn vp) ∧ ∀ p ∈ es, Quiet pf p q'

end AllInSafe.Restrictions
