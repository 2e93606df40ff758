import AllInSafe.Storage.Lemmas.Runs

/-!
# What a save leaves, with and without a failure of the encryption
-/

namespace AllInSafe.Storage
open AllInSafe.Library

variable {α β : Type} {pf : Platform α β} {ctx : Context} {files files' files'' : Files β} {broken : Bool}
  {p q : VpnProfile α} {filename : String} {f : FileName} {fates : List Fate}

/-- The files of other names are the same. -/
def SameElsewhere (filename : String) (files files' : Files β) : Prop :=
  ∀ f : FileName, f.filename ≠ filename → files' f = files f

/-- One file of this name is left, and it holds the profile. -/
structure Saved (pf : Platform α β) (filename : String) (q : VpnProfile α) (files files' : Files β) : Prop where
  holds : Holds pf files' filename q
  cpold : files' ⟨filename, .cpold⟩ = none
  elsewhere : SameElsewhere filename files files'

namespace SameElsewhere

theorem refl : SameElsewhere filename files files := fun _ _ => rfl

theorem trans (h : SameElsewhere filename files files') (h' : SameElsewhere filename files' files'') :
    SameElsewhere filename files files'' := fun f hf => (h' f hf).trans (h f hf)

theorem set {suffix : Suffix} {content : Option (List β)} (h : SameElsewhere filename files files') :
    SameElsewhere filename files (files'.set ⟨filename, suffix⟩ content) := by
  intro f hf
  rw [Files.set_other fun he => hf (by rw [he]), h f hf]

end SameElsewhere

theorem Saved.of_elsewhere (h : Saved pf filename q files' files'') (h' : SameElsewhere filename files files') :
    Saved pf filename q files files'' := ⟨h.holds, h.cpold, h'.trans h.elsewhere⟩

/-! ## Without encryption -/

theorem run_savePlain (fuel : Nat) (hname : p.filename = some filename) (hoff : ¬ EncryptionUsed ctx broken) :
    ∃ files', saveProfile pf ctx (fuel + 1) ⟨files, broken, p, []⟩ =
        .ok ⟨⟩ ⟨files', broken, p.nextVersion ctx, []⟩ ∧ Saved pf filename (p.nextVersion ctx) files files' := by
  have hrun : saveProfile pf ctx (fuel + 1) ⟨files, broken, p, []⟩ =
      .ok ⟨⟩ ⟨((files.set ⟨filename, .cpold⟩ none).set ⟨filename, .vp⟩ (some (pf.serialize (p.nextVersion ctx)))).set
        ⟨filename, .cp⟩ none, broken, p.nextVersion ctx, []⟩ := by
    rw [run_saveProfile hname _ run_deleteExisting_nil, not_encryptionUsed_iff.mp hoff, run_writeVpnFile_done]
  refine ⟨_, hrun, .inr ?_, ?_, SameElsewhere.refl.set.set.set⟩ <;> simp [Files.set]

/-! ## Opening the encrypted file -/

/-- The opening after an old file was renamed. -/
def openNew (pf : Platform α β) (filename : String) : Save α β Bool := do
  try
    Save.getEncryptedVpOutput pf ⟨filename, .cp⟩
    Save.deleteExisting ⟨filename, .cpold⟩
    pure true
  catch e =>
    match e with
    | .ioException | .securityException => pure false
    | e => throw e

theorem openEncrypted_missing (h : files ⟨filename, .cp⟩ = none) :
    openEncrypted pf filename ⟨files, broken, p, fates⟩ = openNew pf filename ⟨files, broken, p, fates⟩ := by
  change (if (files ⟨filename, .cp⟩).isSome = true then _ else _ : Save α β Bool) _ = _
  rw [h]; rfl

theorem openEncrypted_exists (h : files ⟨filename, .cp⟩ ≠ none) :
    openEncrypted pf filename ⟨files, broken, p, fates⟩ =
      (Save.renameTo ⟨filename, .cp⟩ ⟨filename, .cpold⟩ >>= fun _ => openNew pf filename)
        ⟨files, broken, p, fates⟩ := by
  change (if (files ⟨filename, .cp⟩).isSome = true then _ else _ : Save α β Bool) _ = _
  rw [Option.isSome_iff_ne_none.mpr h]; rfl

/-- The files after the renaming of an old encrypted file. -/
def renamed (filename : String) (files : Files β) : Files β :=
  (files.set ⟨filename, .cp⟩ none).set ⟨filename, .cpold⟩ (files ⟨filename, .cp⟩)

theorem renamed_cp : renamed filename files ⟨filename, .cp⟩ = none := by simp [renamed, Files.set]

theorem run_renameTo_done : Save.renameTo ⟨filename, .cp⟩ ⟨filename, .cpold⟩ ⟨files, broken, p, .done :: fates⟩ =
    .ok true ⟨renamed filename files, broken, p, fates⟩ := rfl

theorem run_renameTo_nil : Save.renameTo ⟨filename, .cp⟩ ⟨filename, .cpold⟩ ⟨files, broken, p, []⟩ =
    .ok true ⟨renamed filename files, broken, p, []⟩ := rfl

theorem getEncryptedVpOutput_missing (h : files f = none) :
    Save.getEncryptedVpOutput pf f ⟨files, broken, p, fates⟩ =
      (do Save.openFileOutput f; Save.write f (pf.header f) .securityException : Save α β Unit)
        ⟨files, broken, p, fates⟩ := by
  change (if (files f).isSome = true then _ else _ : Save α β Unit) _ = _
  rw [h]; rfl

theorem getEncryptedVpOutput_exists (h : files f ≠ none) :
    Save.getEncryptedVpOutput pf f ⟨files, broken, p, fates⟩ = .error .ioException ⟨files, broken, p, fates⟩ := by
  change (if (files f).isSome = true then _ else _ : Save α β Unit) _ = _
  rw [Option.isSome_iff_ne_none.mpr h]; rfl

theorem run_openNew_done (h : files ⟨filename, .cp⟩ = none) :
    ∃ files', openNew pf filename ⟨files, broken, p, []⟩ = .ok true ⟨files', broken, p, []⟩ ∧
      files' ⟨filename, .cpold⟩ = none ∧ SameElsewhere filename files files' := by
  have hopen : Save.getEncryptedVpOutput pf ⟨filename, .cp⟩ ⟨files, broken, p, []⟩ =
      .ok ⟨⟩ ⟨(files.set ⟨filename, .cp⟩ (some [])).set ⟨filename, .cp⟩ (some (pf.header ⟨filename, .cp⟩)),
        broken, p, []⟩ := (getEncryptedVpOutput_missing h).trans rfl
  refine ⟨_, tryCatch_ok ((bind_ok hopen).trans (bind_ok run_deleteExisting_nil)), Files.set_same, ?_⟩
  exact SameElsewhere.refl.set.set.set

/-- Whatever the opening has thrown, no file of another name is touched. -/
theorem run_openNew_error {e : Stop}
    (h : Save.getEncryptedVpOutput pf ⟨filename, .cp⟩ ⟨files, broken, p, fates⟩ = .error e ⟨files', broken, p, []⟩)
    (he : e = .ioException ∨ e = .securityException) :
    openNew pf filename ⟨files, broken, p, fates⟩ = .ok false ⟨files', broken, p, []⟩ := by
  refine (tryCatch_error (bind_error h)).trans ?_
  rcases he with rfl | rfl <;> rfl

theorem run_openNew_opening (h : files ⟨filename, .cp⟩ = none) :
    openNew pf filename ⟨files, broken, p, [.fails 0]⟩ = .ok false ⟨files, broken, p, []⟩ :=
  run_openNew_error ((getEncryptedVpOutput_missing h).trans rfl) (.inl rfl)

theorem run_openNew_header (h : files ⟨filename, .cp⟩ = none) (n : Nat) :
    ∃ files', openNew pf filename ⟨files, broken, p, [.done, .fails n]⟩ = .ok false ⟨files', broken, p, []⟩ ∧
      SameElsewhere filename files files' :=
  ⟨_, run_openNew_error ((getEncryptedVpOutput_missing h).trans rfl) (.inr rfl), SameElsewhere.refl.set.set⟩

theorem run_openEncrypted_done :
    ∃ files', openEncrypted pf filename ⟨files, broken, p, []⟩ = .ok true ⟨files', broken, p, []⟩ ∧
      files' ⟨filename, .cpold⟩ = none ∧ SameElsewhere filename files files' := by
  by_cases h : files ⟨filename, .cp⟩ = none
  · rw [openEncrypted_missing h]
    exact run_openNew_done h
  · obtain ⟨files', hrun, hcpold, hsame⟩ := @run_openNew_done α β pf _ broken p filename (@renamed_cp β files filename)
    rw [openEncrypted_exists h, bind_ok run_renameTo_nil]
    exact ⟨files', hrun, hcpold, SameElsewhere.refl.set.set.trans hsame⟩

theorem run_openEncrypted_failed (failure : EncryptionFailure) :
    ∃ files', openEncrypted pf filename ⟨files, broken, p, failure.fates files filename⟩ =
        .ok false ⟨files', broken, p, []⟩ ∧ SameElsewhere filename files files' := by
  have hrenamed : SameElsewhere filename files (renamed filename files) := SameElsewhere.refl.set.set
  by_cases h : files ⟨filename, .cp⟩ = none
  · rw [openEncrypted_missing h]
    cases failure with
    | first => exact ⟨files, run_openNew_opening h, .refl⟩
    | opening =>
      rw [EncryptionFailure.fates, ifExists, h]
      exact ⟨files, run_openNew_opening h, .refl⟩
    | header n =>
      rw [EncryptionFailure.fates, ifExists, h]
      exact run_openNew_header h n
  · rw [openEncrypted_exists h]
    cases failure with
    | first =>
      -- The old file stays, and the opening refuses it.
      have hrename : Save.renameTo ⟨filename, .cp⟩ ⟨filename, .cpold⟩ ⟨files, broken, p, [.fails 0]⟩ =
          .ok false ⟨files, broken, p, []⟩ := rfl
      rw [EncryptionFailure.fates, bind_ok hrename]
      exact ⟨files, run_openNew_error (getEncryptedVpOutput_exists h) (.inl rfl), .refl⟩
    | opening =>
      rw [EncryptionFailure.fates, ifExists, if_pos (Option.isSome_iff_ne_none.mpr h)]
      refine ⟨_, (bind_ok run_renameTo_done).trans (run_openNew_opening renamed_cp), hrenamed⟩
    | header n =>
      rw [EncryptionFailure.fates, ifExists, if_pos (Option.isSome_iff_ne_none.mpr h)]
      obtain ⟨files', hrun, hsame⟩ := @run_openNew_header α β pf _ broken p filename (@renamed_cp β files filename) n
      exact ⟨files', (bind_ok run_renameTo_done).trans hrun, hrenamed.trans hsame⟩

/-! ## With encryption -/

/-- The writing, when the encrypted file is open. -/
theorem run_writeVpnFile_opened {again : Save α β Unit}
    (h : openEncrypted pf filename ⟨files, broken, p, []⟩ = .ok true ⟨files', broken, p, []⟩) :
    writeVpnFile pf again true filename ⟨files, broken, p, []⟩ =
      .ok ⟨⟩ ⟨(files'.set ⟨filename, .cp⟩ (some (pf.encrypt ⟨filename, .cp⟩ (pf.serialize p)))).set
        ⟨filename, .vp⟩ none, broken, p, []⟩ := by
  unfold writeVpnFile
  rw [if_pos rfl]
  refine tryCatch_ok ((bind_ok h).trans ?_)
  rw [if_pos rfl]
  refine (bind_ok rfl).trans ?_
  exact (bind_ok run_write_nil).trans run_deleteExisting_nil

/-- The profile is saved again without encryption, when it could not be opened. -/
theorem run_writeVpnFile_failed {again : Save α β Unit} {d : Device α β}
    (h : openEncrypted pf filename ⟨files, broken, p, fates⟩ = .ok false ⟨files', broken, p, []⟩)
    (hagain : again ⟨files', true, p, []⟩ = .ok ⟨⟩ d) :
    writeVpnFile pf again true filename ⟨files, broken, p, fates⟩ = .ok ⟨⟩ d := by
  unfold writeVpnFile
  rw [if_pos rfl]
  refine tryCatch_ok ((bind_ok h).trans ?_)
  rw [if_neg (by decide)]
  have hbroken : (modify fun d => { d with encryptionBroken := true } : Save α β Unit) ⟨files', broken, p, []⟩ =
      .ok ⟨⟩ ⟨files', true, p, []⟩ := rfl
  exact (bind_ok hbroken).trans hagain

theorem encryptionUsed_iff {b : Bool} :
    EncryptionUsed ctx b ↔ ((ctx.preferencryption && !b) && ctx.encryptionEnabled) = true := by
  rw [← not_iff_not, not_encryptionUsed_iff, Bool.not_eq_true]

theorem run_saveEncrypted (fuel : Nat) (hname : p.filename = some filename) (hon : EncryptionUsed ctx broken) :
    ∃ files', saveProfile pf ctx (fuel + 1) ⟨files, broken, p, []⟩ =
        .ok ⟨⟩ ⟨files', broken, p.nextVersion ctx, []⟩ ∧ Saved pf filename (p.nextVersion ctx) files files' := by
  obtain ⟨files', hopen, hcpold, hsame⟩ := @run_openEncrypted_done α β pf (files.set ⟨filename, .cpold⟩ none) broken
    (p.nextVersion ctx) filename
  have hrun := @run_writeVpnFile_opened α β pf _ files' broken _ filename (saveProfile pf ctx fuel) hopen
  rw [run_saveProfile hname _ run_deleteExisting_nil, encryptionUsed_iff.mp hon, hrun]
  refine ⟨_, rfl, .inl ?_, ?_, (SameElsewhere.refl.set.trans hsame).set.set⟩
  · simp [Files.set]
  · simpa [Files.set] using hcpold

theorem not_encryptionUsed_broken : ¬ EncryptionUsed ctx true := fun h => by cases h.2.1

theorem run_saveBroken (hname : p.filename = some filename) (hon : EncryptionUsed ctx broken)
    (failure : EncryptionFailure) :
    ∃ d, saveProfile pf ctx 2
          ⟨files, broken, p, ifExists files ⟨filename, .cpold⟩ .done ++
            failure.fates (files.set ⟨filename, .cpold⟩ none) filename⟩ = .ok ⟨⟩ d ∧
        Saved pf filename d.profile files d.files := by
  obtain ⟨opened, hopen, hsame⟩ := @run_openEncrypted_failed α β pf (files.set ⟨filename, .cpold⟩ none) broken
    (p.nextVersion ctx) filename failure
  obtain ⟨files', hagain, hsaved⟩ := @run_savePlain α β pf ctx opened true (p.nextVersion ctx) filename 0
    (VpnProfile.filename_nextVersion.trans hname) not_encryptionUsed_broken
  refine ⟨⟨files', true, _, []⟩, ?_, hsaved.of_elsewhere (SameElsewhere.refl.set.trans hsame)⟩
  rw [run_saveProfile hname _ run_deleteExisting_done, encryptionUsed_iff.mp hon]
  exact run_writeVpnFile_failed hopen hagain

/-- Whether the encryption is used, fails or is switched off, the save succeeds and leaves one file. -/
theorem run_saveProfile_saved (hname : p.filename = some filename) (failure : Option EncryptionFailure) :
    ∃ d, saveProfile pf ctx 2 ⟨files, broken, p, saveFates ctx broken files filename failure⟩ = .ok ⟨⟩ d ∧
      Saved pf filename d.profile files d.files := by
  by_cases hon : EncryptionUsed ctx broken
  · cases failure with
    | none =>
      obtain ⟨files', hrun, hsaved⟩ := @run_saveEncrypted α β pf ctx files broken p filename 1 hname hon
      exact ⟨_, hrun, hsaved⟩
    | some failure =>
      obtain ⟨d, hrun, hsaved⟩ := @run_saveBroken α β pf ctx files broken p filename hname hon failure
      rw [saveFates, if_pos hon]
      exact ⟨d, hrun, hsaved⟩
  · have hfates : saveFates ctx broken files filename failure = [] := by
      cases failure with
      | none => rfl
      | some failure => exact if_neg hon
    obtain ⟨files', hrun, hsaved⟩ := @run_savePlain α β pf ctx files broken p filename 1 hname hon
    rw [hfates]
    exact ⟨_, hrun, hsaved⟩

end AllInSafe.Storage
