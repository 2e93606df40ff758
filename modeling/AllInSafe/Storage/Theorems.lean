import AllInSafe.Storage.Lemmas.Runs

/-!
# What a stopped save leaves behind
-/

namespace AllInSafe.Storage
open AllInSafe.Library

variable {α β : Type}

/-- The old profile, or the new one as the first or the second attempt of the save writes it. -/
def IsOldOrNew (pf : Platform α β) (ctx : Context) (old p q : VpnProfile α) : Prop :=
  q = old ∨ q = pf.upgradeProfile (p.nextVersion ctx) ∨ q = pf.upgradeProfile ((p.nextVersion ctx).nextVersion ctx)

/-- A later load finds the old or the new profile. -/
def LoadsOldOrNew (pf : Platform α β) (ctx : Context) (filename : String) (old p : VpnProfile α)
    (files : Files β) : Prop :=
  ∃ q, loadVpnEntry pf ctx filename files = .ok (some q) ∧ IsOldOrNew pf ctx old p q

/-- The content of a `.cpold` that was left behind is the old or the new profile. -/
def LeftoverFits (pf : Platform α β) (ctx : Context) (filename : String) (old p : VpnProfile α)
    (content : List β) : Prop :=
  ∃ q, (pf.decrypt ⟨filename, .cpold⟩ content).bind pf.deserialize = some q ∧ q.mName.isSome = true ∧
    q.mUuid.isSome = true ∧ IsOldOrNew pf ctx old p (pf.upgradeProfile q)

section

variable {pf : Platform α β} {ctx : Context} {files files' : Files β} {broken : Bool} {p q old : VpnProfile α}
  {filename : String} {content : List β}

/-! ## What a load finds -/

theorem loadVpnEntry_cp (h : files ⟨filename, .cp⟩ = some content) :
    loadVpnEntry pf ctx filename files = (getEncryptedVpInput pf ctx ⟨filename, .cp⟩ content).map fun input =>
      (input.bind pf.deserialize).bind (sanityCheck pf) := by
  rw [loadVpnEntry, h]
  rfl

theorem loadVpnEntry_cpold (h : files ⟨filename, .cp⟩ = none) (h' : files ⟨filename, .cpold⟩ = some content) :
    loadVpnEntry pf ctx filename files = (getEncryptedVpInput pf ctx ⟨filename, .cpold⟩ content).map fun input =>
      (input.bind pf.deserialize).bind (sanityCheck pf) := by
  rw [loadVpnEntry, h, h']
  rfl

theorem loadVpnEntry_vp (h : files ⟨filename, .cp⟩ = none) (h' : files ⟨filename, .cpold⟩ = none) :
    loadVpnEntry pf ctx filename files = .ok (((files ⟨filename, .vp⟩).bind pf.deserialize).bind (sanityCheck pf)) := by
  rw [loadVpnEntry, h, h']
  rfl

theorem sanityCheck_eq_some (hn : q.mName.isSome = true) (hu : q.mUuid.isSome = true) :
    sanityCheck pf q = some (pf.upgradeProfile q) := by
  simp [sanityCheck, Option.isNone_iff_eq_none, ← Option.isSome_iff_ne_none, hn, hu]

theorem decrypt_nil {f : FileName} : pf.decrypt f [] = none := by
  have hne : pf.encrypt f [] ≠ [] := by
    intro he
    have hh := pf.header_prefix f []
    rw [he, List.prefix_nil] at hh
    exact pf.header_ne_nil f hh
  exact pf.decrypt_partial f [] [] List.nil_prefix fun he => hne he.symm

/-- An encrypted file that loads needs the master key. -/
theorem masterKey_of_load (h : files ⟨filename, .cp⟩ ≠ none)
    (hold : loadVpnEntry pf ctx filename files = .ok (some old)) : ctx.masterKey = true := by
  obtain ⟨content, hc⟩ := Option.ne_none_iff_exists'.mp h
  rw [loadVpnEntry_cp hc, getEncryptedVpInput] at hold
  split at hold
  · assumption
  · cases hold

theorem mUuid_of_filename (h : p.filename = some filename) : p.mUuid.isSome = true := by
  rw [VpnProfile.filename, Option.map_eq_some_iff] at h
  obtain ⟨uuid, hu, -⟩ := h
  simp [hu]

theorem VpnProfile.mName_nextVersion : (p.nextVersion ctx).mName = p.mName := by
  unfold VpnProfile.nextVersion
  dsimp only
  split <;> rfl

/-! ## The files that a stopped save leaves -/

theorem LoadsOldOrNew.of_untouched (hcp : files ⟨filename, .cp⟩ ≠ none)
    (hold : loadVpnEntry pf ctx filename files = .ok (some old)) (h : Untouched filename files files') :
    LoadsOldOrNew pf ctx filename old p files' := by
  obtain ⟨content, hc⟩ := Option.ne_none_iff_exists'.mp hcp
  refine ⟨old, ?_, .inl rfl⟩
  rw [← hold, loadVpnEntry_cp hc, loadVpnEntry_cp (h.1.trans hc)]

theorem LoadsOldOrNew.of_replaced (hkey : ctx.masterKey = true) (hname : p.filename = some filename)
    (hn : p.mName ≠ none) (hleft : ∀ content ∈ files ⟨filename, .cpold⟩, LeftoverFits pf ctx filename old p content)
    (h : Replaced pf filename (p.nextVersion ctx) files files') : LoadsOldOrNew pf ctx filename old p files' := by
  obtain ⟨hcp, hvp, hold⟩ := h
  cases hc : files' ⟨filename, .cpold⟩ with
  | none =>
      refine ⟨_, ?_, .inr (.inl rfl)⟩
      have hq : sanityCheck pf (p.nextVersion ctx) = some (pf.upgradeProfile (p.nextVersion ctx)) :=
        sanityCheck_eq_some (by rw [VpnProfile.mName_nextVersion]; exact Option.isSome_iff_ne_none.mpr hn)
          (mUuid_of_filename (VpnProfile.filename_nextVersion.trans hname))
      rw [loadVpnEntry_vp hcp hc, hvp, Option.bind_some, pf.deserialize_serialize, Option.bind_some, hq]
  | some content =>
      rw [hc] at hold
      obtain ⟨q, hd, hn, hu, hq⟩ := hleft content (hold.resolve_left (by simp)).symm
      refine ⟨_, ?_, hq⟩
      rw [loadVpnEntry_cpold hcp hc, getEncryptedVpInput, if_pos hkey, Except.map, hd, Option.bind_some,
        sanityCheck_eq_some hn hu]

/-! ## Stops that lose the profile -/

theorem not_encryptionUsed (fuel : Nat) (hname : p.filename = some filename)
    (h : ∀ fates, LoadsOldOrNew pf ctx filename old p
      (endFiles (saveProfile pf ctx (fuel + 2) ⟨files, broken, p, fates⟩))) : ¬ EncryptionUsed ctx broken := by
  intro hused
  obtain ⟨q, hq, -⟩ := h (ifExists files ⟨filename, .cpold⟩ .done ++
    (ifExists (files.set ⟨filename, .cpold⟩ none) ⟨filename, .cp⟩ .done ++ [.done, .killed 0]))
  have hon : ((ctx.preferencryption && !broken) && ctx.encryptionEnabled) = true := by
    obtain ⟨h₁, h₂, h₃⟩ := hused
    rw [h₁, h₂, h₃]; rfl
  rw [run_saveProfile hname _ run_deleteExisting_done, hon, loadVpnEntry_cp run_writeVpnFile_encrypted,
    getEncryptedVpInput, decrypt_nil] at hq
  split at hq <;> cases hq

theorem cp_exists (fuel : Nat) (hname : p.filename = some filename) (hoff : ¬ EncryptionUsed ctx broken)
    (h : ∀ fates, LoadsOldOrNew pf ctx filename old p
      (endFiles (saveProfile pf ctx (fuel + 2) ⟨files, broken, p, fates⟩))) : files ⟨filename, .cp⟩ ≠ none := by
  intro hcp
  obtain ⟨q, hq, -⟩ := h (ifExists files ⟨filename, .cpold⟩ .done ++ [.done, .killed 0])
  rw [run_saveProfile hname _ run_deleteExisting_done, not_encryptionUsed_iff.mp hoff, run_writeVpnFile_plain] at hq
  -- The truncated `.vp` is all that is left.
  dsimp only [endFiles] at hq
  rw [loadVpnEntry_vp (by simpa [Files.set] using hcp) (by simp [Files.set]), Files.set_same,
    Option.bind_some, pf.deserialize_nil] at hq
  cases hq

theorem mName_ne_none (fuel : Nat) (hname : p.filename = some filename) (hoff : ¬ EncryptionUsed ctx broken)
    (h : ∀ fates, LoadsOldOrNew pf ctx filename old p
      (endFiles (saveProfile pf ctx (fuel + 2) ⟨files, broken, p, fates⟩))) : p.mName ≠ none := by
  intro hn
  obtain ⟨q, hq, -⟩ := h (ifExists files ⟨filename, .cpold⟩ .done ++ [])
  have hcheck : sanityCheck pf (p.nextVersion ctx) = none := by
    simp [sanityCheck, VpnProfile.mName_nextVersion, hn]
  rw [run_saveProfile hname _ run_deleteExisting_done, not_encryptionUsed_iff.mp hoff, run_writeVpnFile_done,
    endFiles, loadVpnEntry_vp Files.set_same (by simp [Files.set]), Files.set_other (by simp), Files.set_same,
    Option.bind_some, pf.deserialize_serialize, Option.bind_some, hcheck] at hq
  cases hq

theorem leftoverFits (fuel : Nat) (hname : p.filename = some filename) (hoff : ¬ EncryptionUsed ctx broken)
    (hkey : ctx.masterKey = true)
    (h : ∀ fates, LoadsOldOrNew pf ctx filename old p
      (endFiles (saveProfile pf ctx (fuel + 2) ⟨files, broken, p, fates⟩))) :
    ∀ content ∈ files ⟨filename, .cpold⟩, LeftoverFits pf ctx filename old p content := by
  intro content hc
  rw [Option.mem_def] at hc
  -- The leftover survives its deletion and is what is left of the encrypted files.
  obtain ⟨q, hq, hfits⟩ := h [.fails 0]
  rw [run_saveProfile hname _ (run_deleteExisting_fails (by rw [hc]; rfl) 0), not_encryptionUsed_iff.mp hoff,
    run_writeVpnFile_done, endFiles,
    @loadVpnEntry_cpold _ _ _ _ _ _ content Files.set_same (by simpa [Files.set] using hc),
    getEncryptedVpInput, if_pos hkey, Except.map] at hq
  obtain ⟨vp, hvp, hs⟩ := Option.bind_eq_some_iff.mp (Except.ok.inj hq)
  rw [sanityCheck, Option.ite_none_left_eq_some, Bool.or_eq_true, not_or] at hs
  obtain ⟨⟨hn, hu⟩, hs⟩ := hs
  obtain rfl := Option.some.inj hs
  rw [Option.isNone_iff_eq_none, ← ne_eq, ← Option.isSome_iff_ne_none] at hn hu
  exact ⟨vp, hvp, hn, hu, hfits⟩

end

/-! ## Crash atomicity -/

/-- Wherever a save stops, a later load finds the old or the new profile complete, exactly when the save does not
encrypt, an encrypted file is in place, the new profile has a name and a leftover `.cpold` fits. -/
theorem saveProfile_crash_atomic_iff {pf : Platform α β} {ctx : Context} {files : Files β} {broken : Bool}
    {p old : VpnProfile α} {filename : String} (fuel : Nat) (hname : p.filename = some filename)
    (hold : loadVpnEntry pf ctx filename files = .ok (some old)) :
    (∀ fates, LoadsOldOrNew pf ctx filename old p
        (endFiles (saveProfile pf ctx (fuel + 2) ⟨files, broken, p, fates⟩))) ↔
      ¬ EncryptionUsed ctx broken ∧ files ⟨filename, .cp⟩ ≠ none ∧ p.mName ≠ none ∧
        ∀ content ∈ files ⟨filename, .cpold⟩, LeftoverFits pf ctx filename old p content := by
  constructor
  · intro h
    have hoff := not_encryptionUsed fuel hname h
    have hcp := cp_exists fuel hname hoff h
    have hkey := masterKey_of_load hcp hold
    exact ⟨hoff, hcp, mName_ne_none fuel hname hoff h, leftoverFits fuel hname hoff hkey h⟩
  · rintro ⟨hoff, hcp, hn, hleft⟩ fates
    have hkey := masterKey_of_load hcp hold
    have hsave := @triple_savePlain α β pf ctx files broken p filename (saveProfile pf ctx (fuel + 1)) hoff hname
      ⟨files, broken, p, fates⟩ ⟨rfl, rfl, rfl⟩
    rw [saveProfile]
    revert hsave
    cases saveProfileBody pf ctx (saveProfile pf ctx (fuel + 1)) ⟨files, broken, p, fates⟩ <;>
      exact fun hsave => hsave.elim (.of_untouched hcp hold) (.of_replaced hkey hname hn hleft)

/-! ## Concrete saves -/

/-- The symbols of a small platform whose ciphertexts start with the name of their file and their length. -/
inductive Symbol
  | object (p : VpnProfile Unit)
  | file (f : FileName)
  | length (n : Nat)

def smallPlatform : Platform Unit Symbol where
  serialize p := [.object p]
  deserialize
    | [.object p] => some p
    | _ => none
  header f := [.file f]
  encrypt f b := .file f :: .length b.length :: b
  decrypt
    | f, .file g :: .length n :: b => if g = f ∧ b.length = n then some b else none
    | _, _ => none
  upgradeProfile := id
  deserialize_serialize _ := rfl
  deserialize_nil := rfl
  decrypt_encrypt f b := if_pos ⟨rfl, rfl⟩
  decrypt_partial f b c hpre hne := by
    rcases c with _ | ⟨s, _ | ⟨t, c⟩⟩
    · rfl
    · cases s <;> rfl
    · simp only [List.cons_prefix_cons] at hpre
      obtain ⟨rfl, rfl, hpre⟩ := hpre
      refine if_neg fun h => hne ?_
      rw [hpre.eq_of_length h.2]
  header_prefix f b := ⟨_, rfl⟩
  header_ne_nil f := by simp

def oldProfile : VpnProfile Unit := ⟨some "u", some "work", 3, false, [], ()⟩
def newProfile : VpnProfile Unit := { oldProfile with mName := some "home" }

/-- The old profile stands in the encrypted file. -/
def storedFiles : Files Symbol :=
  fun f => if f = ⟨"u", .cp⟩ then some (smallPlatform.encrypt f (smallPlatform.serialize oldProfile)) else none

/-- It stands in the unencrypted file. -/
def plainFiles : Files Symbol := fun f => if f = ⟨"u", .vp⟩ then some (smallPlatform.serialize oldProfile) else none

/-- Encryption was switched off since the last save; the write stops in the middle. -/
theorem saveProfile_crash_atomic_iff_switchedOff :
    LoadsOldOrNew smallPlatform { preferencryption := false } "u" oldProfile newProfile
      (endFiles (saveProfile smallPlatform { preferencryption := false } 2
        ⟨storedFiles, false, newProfile, [.done, .killed 0]⟩)) := by
  have hload : loadVpnEntry smallPlatform { preferencryption := false } "u" storedFiles = .ok (some oldProfile) := rfl
  exact (saveProfile_crash_atomic_iff 0 rfl hload).mpr
    ⟨by decide, by simp [storedFiles], by decide, fun content hc => by cases hc⟩ [.done, .killed 0]

/-- With encryption the process is killed after the new `.cp` has been created: no profile is found any more. So
it is without encryption, when only a `.vp` was stored and it has just been truncated. -/
theorem saveProfile_loses_profile :
    (loadVpnEntry smallPlatform {} "u" storedFiles = .ok (some oldProfile) ∧
      loadVpnEntry smallPlatform {} "u" (endFiles (saveProfile smallPlatform {} 2
        ⟨storedFiles, false, newProfile, [.done, .done, .killed 0]⟩)) = .ok none) ∧
    (loadVpnEntry smallPlatform { preferencryption := false } "u" plainFiles = .ok (some oldProfile) ∧
      loadVpnEntry smallPlatform { preferencryption := false } "u" (endFiles (saveProfile smallPlatform
        { preferencryption := false } 2 ⟨plainFiles, false, newProfile, [.done, .killed 0]⟩)) = .ok none) :=
  ⟨⟨rfl, rfl⟩, rfl, rfl⟩

end AllInSafe.Storage
