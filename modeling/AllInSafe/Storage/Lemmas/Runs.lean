import AllInSafe.Storage.ProfileManager

/-!
# Runs of a save under a given script
-/

namespace AllInSafe.Storage
open AllInSafe.Library

variable {α β : Type} {pf : Platform α β} {ctx : Context} {files : Files β} {broken : Bool} {p : VpnProfile α}
  {filename : String} {f g : FileName} {fates : List Fate} {content : List β}

/-- The files when a save has ended or was stopped. -/
def endFiles : EStateM.Result Stop (Device α β) Unit → Files β
  | .ok _ d | .error _ d => d.files

/-! ## Fuel -/

theorem writeVpnFile_congr {again again' : Save α β Unit} {encrypted : Bool}
    (h : ∀ d, d.encryptionBroken = true → again d = again' d) :
    writeVpnFile pf again encrypted filename = writeVpnFile pf again' encrypted filename := by
  have hagain : (do modify fun d => { d with encryptionBroken := true }; again : Save α β Unit) =
      (do modify fun d => { d with encryptionBroken := true }; again') := funext fun d => h _ rfl
  unfold writeVpnFile
  simp only [hagain]

theorem saveProfileBody_named {again : Save α β Unit} {d : Device α β}
    (hname : (d.profile.nextVersion ctx).filename = some filename) :
    saveProfileBody pf ctx again d =
      (do Save.deleteExisting ⟨filename, .cpold⟩
          writeVpnFile pf again ((ctx.preferencryption && !d.encryptionBroken) && ctx.encryptionEnabled) filename)
        { d with profile := d.profile.nextVersion ctx } := by
  unfold saveProfileBody
  refine (bind_ok rfl).trans ((bind_ok rfl).trans ((bind_ok rfl).trans ?_))
  dsimp only
  rw [hname]

theorem saveProfileBody_unnamed {again : Save α β Unit} {d : Device α β}
    (hname : (d.profile.nextVersion ctx).filename = none) :
    saveProfileBody pf ctx again d = .error .nullPointerException { d with profile := d.profile.nextVersion ctx } := by
  unfold saveProfileBody
  refine (bind_ok rfl).trans ((bind_ok rfl).trans ((bind_ok rfl).trans ?_))
  dsimp only
  rw [hname]
  rfl

theorem saveProfileBody_broken {again again' : Save α β Unit} {d : Device α β} (h : d.encryptionBroken = true) :
    saveProfileBody pf ctx again d = saveProfileBody pf ctx again' d := by
  have hoff : ((ctx.preferencryption && !d.encryptionBroken) && ctx.encryptionEnabled) = false := by simp [h]
  cases hname : (d.profile.nextVersion ctx).filename with
  | none => rw [saveProfileBody_unnamed hname, saveProfileBody_unnamed hname]
  | some filename =>
      rw [saveProfileBody_named hname, saveProfileBody_named hname, hoff]
      rfl

/-- Fuel for two calls is enough. -/
theorem saveProfile_fuel (fuel : Nat) : (saveProfile pf ctx (fuel + 2) : Save α β Unit) = saveProfile pf ctx 2 := by
  have hcongr : ∀ again again' : Save α β Unit, (∀ d, d.encryptionBroken = true → again d = again' d) →
      saveProfileBody pf ctx again = saveProfileBody pf ctx again' := by
    intro again again' h
    unfold saveProfileBody
    simp only [writeVpnFile_congr h]
  exact hcongr _ _ fun d hd => saveProfileBody_broken hd

/-! ## Operations that succeed, and the first one that does not -/

theorem Files.set_none_of_none (h : files f = none) : files.set f none = files := by
  funext g
  by_cases hg : g = f
  · rw [hg, Files.set_same, h]
  · rw [Files.set_other hg]

theorem run_deleteExisting_missing (h : files f = none) :
    Save.deleteExisting f ⟨files, broken, p, fates⟩ = .ok ⟨⟩ ⟨files.set f none, broken, p, fates⟩ := by
  rw [Files.set_none_of_none h]
  change (if (files f).isSome = true then _ else _ : Save α β Unit) _ = _
  rw [h]; rfl

theorem run_deleteExisting_done :
    Save.deleteExisting f ⟨files, broken, p, ifExists files f .done ++ fates⟩ =
      .ok ⟨⟩ ⟨files.set f none, broken, p, fates⟩ := by
  cases h : files f with
  | none =>
      simp only [ifExists, h]
      exact run_deleteExisting_missing h
  | some content =>
      simp only [ifExists, h]
      change (if (files f).isSome = true then _ else _ : Save α β Unit) _ = _
      rw [h]; rfl

theorem run_deleteExisting_nil :
    Save.deleteExisting f ⟨files, broken, p, []⟩ = .ok ⟨⟩ ⟨files.set f none, broken, p, []⟩ := by
  cases h : files f with
  | none => exact run_deleteExisting_missing h
  | some content =>
      change (if (files f).isSome = true then _ else _ : Save α β Unit) _ = _
      rw [h]; rfl

theorem run_write_nil {failure : Stop} :
    Save.write f content failure ⟨files, broken, p, []⟩ = .ok ⟨⟩ ⟨files.set f (some content), broken, p, []⟩ := rfl

theorem run_deleteExisting_fails (h : (files f).isSome = true) (n : Nat) :
    Save.deleteExisting f ⟨files, broken, p, .fails n :: fates⟩ = .ok ⟨⟩ ⟨files, broken, p, fates⟩ := by
  change (if (files f).isSome = true then _ else _ : Save α β Unit) _ = _
  rw [h]; rfl

/-- The start of a save, up to its `try`. -/
theorem run_saveProfile (hname : p.filename = some filename) (fuel : Nat) {files' : Files β}
    {fates' : List Fate} (hdel : Save.deleteExisting ⟨filename, .cpold⟩
      ⟨files, broken, p.nextVersion ctx, fates⟩ = .ok ⟨⟩ ⟨files', broken, p.nextVersion ctx, fates'⟩) :
    saveProfile pf ctx (fuel + 1) ⟨files, broken, p, fates⟩ =
      writeVpnFile pf (saveProfile pf ctx fuel) ((ctx.preferencryption && !broken) && ctx.encryptionEnabled) filename
        ⟨files', broken, p.nextVersion ctx, fates'⟩ := by
  have hnext : (p.nextVersion ctx).filename = some filename := by rw [VpnProfile.filename_nextVersion, hname]
  exact (saveProfileBody_named hnext).trans (bind_ok hdel)

theorem run_openFileOutput_done : Save.openFileOutput f ⟨files, broken, p, .done :: fates⟩ =
    .ok ⟨⟩ ⟨files.set f (some []), broken, p, fates⟩ := rfl

theorem run_write_killed {failure : Stop} (h : files f = some []) :
    Save.write f content failure ⟨files, broken, p, .killed 0 :: fates⟩ =
      .error .killed ⟨files.set f (some []), broken, p, fates⟩ := by
  change EStateM.Result.error _ (Device.mk (files.set f (some (content.take (((files f).getD []).length + 0)))) _ _ _) = _
  rw [h]; rfl

/-- The process is killed after the encrypted file has been created. -/
theorem run_writeVpnFile_encrypted {again : Save α β Unit} :
    (endFiles (writeVpnFile pf again true filename
      ⟨files, broken, p, ifExists files ⟨filename, .cp⟩ .done ++ [.done, .killed 0]⟩)) ⟨filename, .cp⟩ = some [] := by
  -- Wherever the old file went, the new one is created and its header is not written.
  have hcreate : ∀ files' : Files β, files' ⟨filename, .cp⟩ = none →
      Save.getEncryptedVpOutput pf ⟨filename, .cp⟩ ⟨files', broken, p, [.done, .killed 0]⟩ =
        .error .killed ⟨files'.set ⟨filename, .cp⟩ (some []), broken, p, []⟩ := by
    intro files' h
    change (if (files' ⟨filename, .cp⟩).isSome = true then _ else _ : Save α β Unit) _ = _
    rw [h, Option.isSome_none, if_neg (by decide), bind_ok run_openFileOutput_done,
      run_write_killed Files.set_same, Files.set_set]
  have hopen : ∃ files' : Files β, openEncrypted pf filename
      ⟨files, broken, p, ifExists files ⟨filename, .cp⟩ .done ++ [.done, .killed 0]⟩ =
        .error .killed ⟨files'.set ⟨filename, .cp⟩ (some []), broken, p, []⟩ := by
    cases h : files ⟨filename, .cp⟩ with
    | none =>
        refine ⟨files, ?_⟩
        simp only [ifExists, h]
        change (if (files ⟨filename, .cp⟩).isSome = true then _ else _ : Save α β Bool) _ = _
        rw [h, Option.isSome_none, if_neg (by decide)]
        exact (tryCatch_error (bind_error (hcreate files h))).trans rfl
    | some content =>
        refine ⟨(files.set ⟨filename, .cp⟩ none).set ⟨filename, .cpold⟩ (some content), ?_⟩
        simp only [ifExists, h]
        change (if (files ⟨filename, .cp⟩).isSome = true then _ else _ : Save α β Bool) _ = _
        rw [h, Option.isSome_some, if_pos rfl]
        have hrename : Save.renameTo ⟨filename, .cp⟩ ⟨filename, .cpold⟩
            ⟨files, broken, p, [.done] ++ [.done, .killed 0]⟩ = .ok true
              ⟨(files.set ⟨filename, .cp⟩ none).set ⟨filename, .cpold⟩ (some content), broken, p, [.done, .killed 0]⟩ := by
          rw [← h]; rfl
        rw [if_pos rfl, bind_ok hrename]
        refine (tryCatch_error (bind_error (hcreate _ ?_))).trans rfl
        rw [Files.set_other (by simp), Files.set_same]
  obtain ⟨files', hopen⟩ := hopen
  unfold writeVpnFile
  rw [if_pos rfl, tryCatch_error (bind_error hopen)]
  exact Files.set_same

/-- The process is killed after the `.vp` has been truncated. -/
theorem run_writeVpnFile_plain {again : Save α β Unit} :
    writeVpnFile pf again false filename ⟨files, broken, p, [.done, .killed 0]⟩ =
      .error .killed ⟨files.set ⟨filename, .vp⟩ (some []), broken, p, []⟩ := by
  have hwrite : writeProfile ⟨filename, .vp⟩ (pf.serialize p) ⟨filename, .cp⟩
      ⟨files.set ⟨filename, .vp⟩ (some []), broken, p, [.killed 0]⟩ =
        .error .killed ⟨files.set ⟨filename, .vp⟩ (some []), broken, p, []⟩ := by
    rw [writeProfile, bind_error (run_write_killed Files.set_same), Files.set_set]
  unfold writeVpnFile
  rw [if_neg (by decide)]
  refine (tryCatch_error (bind_ok run_openFileOutput_done |>.trans hwrite)).trans rfl

/-- Everything succeeds. -/
theorem run_writeVpnFile_done {again : Save α β Unit} :
    writeVpnFile pf again false filename ⟨files, broken, p, []⟩ =
      .ok ⟨⟩ ⟨(files.set ⟨filename, .vp⟩ (some (pf.serialize p))).set ⟨filename, .cp⟩ none, broken, p, []⟩ := by
  have hopen : Save.openFileOutput ⟨filename, .vp⟩ ⟨files, broken, p, []⟩ =
      .ok ⟨⟩ ⟨files.set ⟨filename, .vp⟩ (some []), broken, p, []⟩ := rfl
  have hwrite : Save.write ⟨filename, .vp⟩ (pf.serialize p) .ioException
      ⟨files.set ⟨filename, .vp⟩ (some []), broken, p, []⟩ =
        .ok ⟨⟩ ⟨files.set ⟨filename, .vp⟩ (some (pf.serialize p)), broken, p, []⟩ := by
    rw [run_write_nil, Files.set_set]
  have hprofile : writeProfile ⟨filename, .vp⟩ (pf.serialize p) ⟨filename, .cp⟩
      ⟨files.set ⟨filename, .vp⟩ (some []), broken, p, []⟩ =
        .ok ⟨⟩ ⟨(files.set ⟨filename, .vp⟩ (some (pf.serialize p))).set ⟨filename, .cp⟩ none, broken, p, []⟩ :=
    (bind_ok hwrite).trans run_deleteExisting_nil
  unfold writeVpnFile
  rw [if_neg (by decide)]
  exact tryCatch_ok ((bind_ok hopen).trans hprofile)

end AllInSafe.Storage
