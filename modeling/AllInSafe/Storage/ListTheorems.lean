import AllInSafe.Storage.Lemmas.Saves
import AllInSafe.Storage.Theorems

/-!
# The storage matches the profile list
-/

namespace AllInSafe.Storage
open AllInSafe.Library

variable {α β : Type} {pf : Platform α β} {ctx : Context} {m m' : Manager α β} {profile : VpnProfile α}

/-- Every file is known from its last save, and holds what was saved then. -/
structure Kept (pf : Platform α β) (m : Manager α β) : Prop where
  known : ∀ f, m.files f ≠ none → m.lastSaved f.filename ≠ none ∨ f.filename = TEMPORARY_PROFILE_FILENAME
  holds : ∀ filename q, m.lastSaved filename = some q → Holds pf m.files filename q

theorem Kept.tidy (h : Kept pf m) : Tidy pf m := ⟨fun f hf => .inr (h.known f hf), fun uuid _ q => h.holds uuid q⟩

theorem kept_init : Kept pf (manager pf).init := ⟨fun _ h => absurd rfl h, fun _ _ h => by cases h⟩

theorem Holds.elsewhere {files files' : Files β} {filename : String} {q : VpnProfile α}
    (h : Holds pf files filename q) (hf : ∀ suffix, files' ⟨filename, suffix⟩ = files ⟨filename, suffix⟩) :
    Holds pf files' filename q := by
  simpa only [Holds, hf] using h

/-! ## One call -/

theorem Kept.addProfile (h : Kept pf m) (hstep : m.addProfile profile = some m') : Kept pf m' := by
  obtain ⟨uuid, -, rfl⟩ := Option.map_eq_some_iff.mp hstep
  exact ⟨h.known, h.holds⟩

theorem Kept.saveProfile {failure : Option EncryptionFailure} (h : Kept pf m)
    (hstep : m.saveProfile pf ctx profile failure = some m') : Kept pf m' := by
  obtain ⟨filename, hname, hsave⟩ := Option.bind_eq_some_iff.mp hstep
  obtain ⟨d, hrun, hsaved⟩ := @run_saveProfile_saved α β pf ctx m.files m.encryptionBroken profile filename hname failure
  simp only [hrun, Option.some.injEq] at hsave
  subst hsave
  constructor
  · intro f hf
    dsimp only at hf ⊢
    by_cases hfile : f.filename = filename
    · left; simp [hfile]
    · rw [hsaved.elsewhere f hfile] at hf
      simpa [Function.update_of_ne hfile] using h.known f hf
  · intro name q hq
    by_cases hfile : name = filename
    · subst hfile
      simp only [Function.update_self, Option.some.injEq] at hq
      exact hq ▸ hsaved.holds
    · simp only [Function.update_of_ne hfile] at hq
      exact (h.holds name q hq).elsewhere fun suffix => hsaved.elsewhere ⟨name, suffix⟩ hfile

/-- Of a removed profile only the files stay that are not deleted. -/
theorem removesPlain_of_tidy (hstep : m.removeProfile profile = some m') (h : Tidy pf m') :
    RemovesPlain m (.removeProfile profile) := by
  intro vpnentry hu htemp
  rw [Manager.removeProfile, hu] at hstep
  cases hstep
  have hgone : ∀ suffix, suffix ≠ .vp → m.files ⟨vpnentry, suffix⟩ = none := by
    intro suffix hs
    by_contra hf
    have hkept : m.files.set ⟨vpnentry, .vp⟩ none ⟨vpnentry, suffix⟩ ≠ none := by
      rw [Files.set_other (by simp [hs])]; exact hf
    rcases h.known ⟨vpnentry, suffix⟩ hkept with hlisted | hsaved | htmp
    · simp [Manager.saveProfileList, Manager.deleteFile] at hlisted
    · simp at hsaved
    · exact htemp htmp
  exact ⟨hgone .cp (by simp), hgone .cpold (by simp)⟩

theorem Kept.removeProfile (h : Kept pf m) (hgood : RemovesPlain m (.removeProfile profile))
    (hstep : m.removeProfile profile = some m') : Kept pf m' := by
  obtain ⟨vpnentry, hu, rfl⟩ := Option.map_eq_some_iff.mp hstep
  simp only [Manager.saveProfileList, Manager.deleteFile]
  have helse : ∀ f : FileName, f.filename ≠ vpnentry → m.files.set ⟨vpnentry, .vp⟩ none f = m.files f :=
    fun f hf => Files.set_other fun he => hf (by rw [he])
  constructor
  · intro f hf
    by_cases hfile : f.filename = vpnentry
    · right
      by_contra htemp
      rw [hfile] at htemp
      obtain ⟨hcp, hcpold⟩ := hgood vpnentry hu htemp
      obtain ⟨name, suffix⟩ := f
      obtain rfl : name = vpnentry := hfile
      apply hf
      cases suffix with
      | vp => exact Files.set_same
      | cp => exact (Files.set_other (by simp)).trans hcp
      | cpold => exact (Files.set_other (by simp)).trans hcpold
    · have hfile' : m.files f ≠ none := by rw [← helse f hfile]; exact hf
      simpa [Function.update_of_ne hfile] using h.known f hfile'
  · intro name q hq
    by_cases hfile : name = vpnentry
    · simp [hfile] at hq
    · simp only [Function.update_of_ne hfile] at hq
      exact (h.holds name q hq).elsewhere fun suffix => helse ⟨name, suffix⟩ hfile

theorem Kept.step {c : Call α} (h : Kept pf m) (hstep : (manager pf).step m c = some m') :
    (Tidy pf m' → RemovesPlain m c) ∧ (RemovesPlain m c → Kept pf m') := by
  cases c with
  | addProfile profile => exact ⟨fun _ => trivial, fun _ => h.addProfile hstep⟩
  | saveProfile ctx profile failure => exact ⟨fun _ => trivial, fun _ => h.saveProfile hstep⟩
  | saveProfileList =>
    cases hstep
    exact ⟨fun _ => trivial, fun _ => ⟨h.known, h.holds⟩⟩
  | removeProfile profile => exact ⟨removesPlain_of_tidy hstep, fun hgood => h.removeProfile hgood hstep⟩

/-! ## Every run -/

/-- No call crashes for a profile that has a UUID. -/
theorem step_ne_none {c : Call α}
    (hu : ∀ profile, (c = .addProfile profile ∨ (∃ ctx failure, c = .saveProfile ctx profile failure) ∨
      c = .removeProfile profile) → profile.mUuid ≠ none) : (manager pf).step m c ≠ none := by
  cases c with
  | addProfile profile => simpa [manager, Manager.step, Manager.addProfile] using hu profile (by simp)
  | saveProfile ctx profile failure =>
    obtain ⟨uuid, hu⟩ := Option.ne_none_iff_exists'.mp (hu profile (by simp))
    obtain ⟨filename, hname⟩ : ∃ filename, profile.filename = some filename := ⟨_, by rw [VpnProfile.filename, hu]; rfl⟩
    obtain ⟨d, hrun, -⟩ := @run_saveProfile_saved α β pf ctx m.files m.encryptionBroken profile filename hname failure
    simp [manager, Manager.step, Manager.saveProfile, hname, hrun]
  | saveProfileList => simp [manager, Manager.step]
  | removeProfile profile => simpa [manager, Manager.step, Manager.removeProfile] using hu profile (by simp)

/-- The storage matches the list after every call of a run exactly when no profile is removed that has a file beside
its `.vp`. -/
theorem storage_tidy_iff {calls : List (Call α)} (hrun : (manager pf).runFrom (manager pf).init calls = some m) :
    (∀ done rest t, calls = done ++ rest → (manager pf).runFrom (manager pf).init done = some t → Tidy pf t) ↔
      (manager pf).StepsMeet RemovesPlain (manager pf).init calls :=
  Machine.always_iff (fun _ h => Kept.tidy h) (fun _ _ _ h hstep => Kept.step h hstep) kept_init hrun

/-- A profile is added, saved, listed and removed. -/
def savedThenRemoved (preferencryption : Bool) : List (Call Unit) :=
  [.addProfile oldProfile, .saveProfile { preferencryption := preferencryption } oldProfile none, .saveProfileList,
    .removeProfile oldProfile]

theorem storage_tidy_iff_unencrypted :
    ∃ m, (manager smallPlatform).runFrom (manager smallPlatform).init (savedThenRemoved false) = some m ∧
      m.files ⟨"u", .vp⟩ = none ∧ Tidy smallPlatform m := by
  obtain ⟨m, hrun, hvp⟩ : ∃ m, (manager smallPlatform).runFrom (manager smallPlatform).init (savedThenRemoved false) =
      some m ∧ m.files ⟨"u", .vp⟩ = none := ⟨_, rfl, rfl⟩
  have hmeet : (manager smallPlatform).StepsMeet RemovesPlain (manager smallPlatform).init (savedThenRemoved false) := by
    refine ⟨trivial, fun s₁ h₁ => ⟨trivial, fun s₂ h₂ => ⟨trivial, fun s₃ h₃ => ⟨?_, fun _ _ => trivial⟩⟩⟩⟩
    cases h₁; cases h₂; cases h₃
    intro vpnentry hu htemp
    cases hu
    exact ⟨rfl, rfl⟩
  exact ⟨m, hrun, hvp, (storage_tidy_iff hrun).mpr hmeet _ [] m (List.append_nil _).symm hrun⟩

/-- Encryption is on, as it is by default: the encrypted file of the removed profile stays. -/
theorem removed_profile_stays :
    ∃ m, (manager smallPlatform).runFrom (manager smallPlatform).init (savedThenRemoved true) = some m ∧
      (m.files ⟨"u", .cp⟩).isSome = true ∧ m.vpnlist = ∅ ∧ ¬ Tidy smallPlatform m := by
  obtain ⟨m, hrun, hcp, hlist, hsaved⟩ : ∃ m,
      (manager smallPlatform).runFrom (manager smallPlatform).init (savedThenRemoved true) = some m ∧
        (m.files ⟨"u", .cp⟩).isSome = true ∧ m.vpnlist = ∅ ∧ m.lastSaved "u" = none := ⟨_, rfl, rfl, rfl, rfl⟩
  refine ⟨m, hrun, hcp, hlist, fun h => ?_⟩
  rcases h.known ⟨"u", .cp⟩ (Option.isSome_iff_ne_none.mp hcp) with hl | hs | ht
  · simp [hlist] at hl
  · exact hs hsaved
  · exact absurd ht (by decide)

end AllInSafe.Storage
