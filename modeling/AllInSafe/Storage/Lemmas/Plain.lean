import AllInSafe.Library.Triple
import AllInSafe.Storage.Model

/-!
# The file operations, and saving without encryption

Until the new `.vp` is complete the `.cp` is not touched, and its deletion is the last step.
-/

namespace AllInSafe.Storage
open AllInSafe.Library

section

variable {α β : Type}

/-! ## Files -/

@[simp] theorem Files.set_same {files : Files β} {f : FileName} {content : Option (List β)} :
    files.set f content f = content := by simp [Files.set]

theorem Files.set_other {files : Files β} {f g : FileName} {content : Option (List β)} (h : g ≠ f) :
    files.set f content g = files g := by simp [Files.set, h]

@[simp] theorem Files.set_set {files : Files β} {f : FileName} {a b : Option (List β)} :
    (files.set f a).set f b = files.set f b := by
  funext g
  by_cases h : g = f <;> simp [Files.set, h]

/-! ## What every outcome of an operation keeps -/

/-- A property of the files and of the profile in memory. -/
def On (R : Files β → VpnProfile α → Prop) (d : Device α β) : Prop := R d.files d.profile

variable {R S : Files β → VpnProfile α → Prop} {E : Files β → VpnProfile α → Prop} {f g : FileName}

theorem triple_nextFate : Triple (On R) Save.nextFate (fun _ => On R) (fun _ => On E) := by
  intro d hd
  unfold Save.nextFate
  cases d.fates <;> exact hd

theorem triple_fileExists :
    Triple (On R) (Save.fileExists f) (fun b => On fun files p => R files p ∧ (files f).isSome = b) (fun _ => On E) :=
  .bind (Q := fun d₀ d => d = d₀ ∧ On R d) (.get fun _ hd => ⟨rfl, hd⟩) fun _ =>
    .pure fun _ hd => ⟨hd.2, by rw [hd.1]⟩

theorem triple_put {content : Option (List β)} (h : ∀ files p, R files p → S (files.set f content) p) :
    Triple (On R) (Save.put f content) (fun _ => On S) (fun _ => On E) :=
  .modify fun d hd => h d.files d.profile hd

theorem triple_delete (hdone : ∀ files p, R files p → S (files.set f none) p)
    (hfails : ∀ files p, R files p → S files p) (hkilled : ∀ files p, R files p → E files p) :
    Triple (On R) (Save.delete f) (fun _ => On S) (fun _ => On E) := by
  refine .bind triple_nextFate fun fate => ?_
  cases fate with
  | done => exact .bind (triple_put hdone) fun _ => .pure fun d hd => hd
  | fails n => exact .pure fun d hd => hfails _ _ hd
  | killed n => exact .throw fun d hd => hkilled _ _ hd

theorem triple_deleteExisting (hdone : ∀ files p, R files p → S (files.set f none) p)
    (hkeeps : ∀ files p, R files p → S files p) (hkilled : ∀ files p, R files p → E files p) :
    Triple (On R) (Save.deleteExisting f) (fun _ => On S) (fun _ => On E) := by
  refine .bind triple_fileExists fun b => .ite (fun _ => ?_) fun _ => .pure fun d hd => hkeeps _ _ hd.1
  exact .bind (triple_delete (fun _ _ h => hdone _ _ h.1) (fun _ _ h => hkeeps _ _ h.1) fun _ _ h => hkilled _ _ h.1)
    fun _ => .pure fun d hd => hd

theorem triple_openFileOutput (hdone : ∀ files p, R files p → S (files.set f (some [])) p)
    (hfails : ∀ files p, R files p → E files p) :
    Triple (On R) (Save.openFileOutput f) (fun _ => On S) (fun _ => On E) := by
  refine .bind triple_nextFate fun fate => ?_
  cases fate with
  | done => exact triple_put hdone
  | fails n => exact .throw fun d hd => hfails _ _ hd
  | killed n => exact .throw fun d hd => hfails _ _ hd

/-- A write that does not end leaves the beginning of the content. -/
theorem triple_write {content : List β} {failure : Stop}
    (hdone : ∀ files p, R files p → S (files.set f (some content)) p)
    (hpart : ∀ n files p, R files p → E (files.set f (some (content.take n))) p) :
    Triple (On R) (Save.write f content failure) (fun _ => On S) (fun _ => On E) := by
  refine .bind (Q := fun _ => On R) (.get fun _ hd => hd) fun d₀ => ?_
  refine .bind triple_nextFate fun fate => ?_
  cases fate with
  | done => exact triple_put hdone
  | fails n => exact .bind (triple_put fun files p h => hpart _ files p h) fun _ => .throw fun d hd => hd
  | killed n => exact .bind (triple_put fun files p h => hpart _ files p h) fun _ => .throw fun d hd => hd


end

/-! ## Saving without encryption -/

variable {α β : Type} (pf : Platform α β) (ctx : Context)

/-- Whether a save tries to encrypt. -/
def EncryptionUsed (ctx : Context) (encryptionBroken : Bool) : Prop :=
  ctx.preferencryption = true ∧ encryptionBroken = false ∧ ctx.encryptionEnabled = true

instance {b : Bool} : Decidable (EncryptionUsed ctx b) := inferInstanceAs (Decidable (_ ∧ _))

theorem not_encryptionUsed_iff {ctx : Context} {b : Bool} :
    ¬ EncryptionUsed ctx b ↔ ((ctx.preferencryption && !b) && ctx.encryptionEnabled) = false := by
  rw [EncryptionUsed]
  cases ctx.preferencryption <;> cases b <;> cases ctx.encryptionEnabled <;> simp

/-- The files while the `.cp` is in place; a leftover `.cpold` may be gone. -/
def Untouched (filename : String) (files files' : Files β) : Prop :=
  files' ⟨filename, .cp⟩ = files ⟨filename, .cp⟩ ∧
    (files' ⟨filename, .cpold⟩ = none ∨ files' ⟨filename, .cpold⟩ = files ⟨filename, .cpold⟩)

/-- The files at the end of a save that wrote the profile `q`. -/
def Replaced (filename : String) (q : VpnProfile α) (files files' : Files β) : Prop :=
  files' ⟨filename, .cp⟩ = none ∧ files' ⟨filename, .vp⟩ = some (pf.serialize q) ∧
    (files' ⟨filename, .cpold⟩ = none ∨ files' ⟨filename, .cpold⟩ = files ⟨filename, .cpold⟩)

variable {pf ctx} {files : Files β} {broken : Bool} {p q : VpnProfile α} {filename : String}

theorem Untouched.set_vp {files' : Files β} {content : Option (List β)} (h : Untouched filename files files') :
    Untouched filename files (files'.set ⟨filename, .vp⟩ content) := by
  simpa [Untouched, Files.set] using h

theorem Untouched.delete_cpold {files' : Files β} (h : Untouched filename files files') :
    Untouched filename files (files'.set ⟨filename, .cpold⟩ none) := by
  simpa [Untouched, Files.set] using h.1

theorem VpnProfile.filename_nextVersion : (p.nextVersion ctx).filename = p.filename := by
  unfold VpnProfile.nextVersion
  dsimp only
  split <;> rfl

theorem triple_writePlain :
    Triple (On fun files' r => Untouched filename files files' ∧ r = q)
      (writeProfile ⟨filename, .vp⟩ (pf.serialize q) ⟨filename, .cp⟩)
      (fun _ => On fun files' _ => Untouched filename files files' ∨ Replaced pf filename q files files')
      (fun _ => On fun files' _ => Untouched filename files files' ∨ Replaced pf filename q files files') := by
  refine .bind (triple_write (S := fun files' _ => Untouched filename files files' ∧
    files' ⟨filename, .vp⟩ = some (pf.serialize q)) ?_ ?_) fun _ => ?_
  · exact fun files' r h => ⟨h.1.set_vp, by simp⟩
  · exact fun n files' r h => .inl h.1.set_vp
  refine triple_deleteExisting ?_ (fun _ _ h => .inl h.1) fun _ _ h => .inl h.1
  intro files' r h
  refine .inr ⟨by simp, ?_, ?_⟩
  · rw [Files.set_other (by simp)]; exact h.2
  · rw [Files.set_other (by simp)]; exact h.1.2

theorem triple_writeVpnFile {again : Save α β Unit} :
    Triple (On fun files' r => Untouched filename files files' ∧ r = q) (writeVpnFile pf again false filename)
      (fun _ => On fun files' _ => Untouched filename files files' ∨ Replaced pf filename q files files')
      (fun _ => On fun files' _ => Untouched filename files files' ∨ Replaced pf filename q files files') := by
  refine .tryCatch (F := fun _ => On fun files' _ => Untouched filename files files' ∨
    Replaced pf filename q files files') (.ite (fun h => absurd h (by decide)) fun _ => ?_) fun e => ?_
  · refine .bind (triple_openFileOutput (S := fun files' r => Untouched filename files files' ∧ r = q)
      (fun _ _ h => ⟨h.1.set_vp, h.2⟩) fun _ _ h => .inl h.1) fun _ => ?_
    refine .bind (Q := fun d₁ d => d = d₁ ∧ On (fun files' r => Untouched filename files files' ∧ r = q) d)
      (.get fun _ hd => ⟨rfl, hd⟩) fun d₁ => ?_
    intro d hd
    obtain ⟨rfl, hd⟩ := hd
    have hr : d.profile = q := hd.2
    rw [hr]
    exact triple_writePlain d hd
  · cases e <;> exact .throw fun d hd => hd

/-- Wherever a save without encryption stops, the `.cp` is untouched or the save is complete. -/
theorem triple_savePlain {again : Save α β Unit} (hoff : ¬ EncryptionUsed ctx broken)
    (hname : p.filename = some filename) :
    Triple (fun d => d.files = files ∧ d.profile = p ∧ d.encryptionBroken = broken) (saveProfileBody pf ctx again)
      (fun _ => On fun files' _ => Untouched filename files files' ∨
        Replaced pf filename (p.nextVersion ctx) files files')
      (fun _ => On fun files' _ => Untouched filename files files' ∨
        Replaced pf filename (p.nextVersion ctx) files files') := by
  have hpref := not_encryptionUsed_iff.mp hoff
  refine .bind (Q := fun d₀ d => d = d₀ ∧ d.files = files ∧ d.profile = p ∧ d.encryptionBroken = broken)
    (.get fun d hd => ⟨rfl, hd⟩) fun d₀ => ?_
  refine .bind (Q := fun _ d => d₀.encryptionBroken = broken ∧ d.files = files ∧ d.profile = p.nextVersion ctx)
    (.modify fun d hd => ⟨hd.1 ▸ hd.2.2.2, hd.2.1, by rw [hd.2.2.1]⟩) fun _ => ?_
  refine .bind (Q := fun d₁ d => d₀.encryptionBroken = broken ∧ d₁.profile.filename = some filename ∧
    On (fun files' r => Untouched filename files files' ∧ r = p.nextVersion ctx) d) (.get fun d hd => ?_) fun d₁ => ?_
  · refine ⟨hd.1, by rw [hd.2.2, VpnProfile.filename_nextVersion, hname], ?_⟩
    exact ⟨by rw [hd.2.1]; exact ⟨rfl, .inr rfl⟩, hd.2.2⟩
  by_cases hb : d₀.encryptionBroken = broken
  · by_cases hn : d₁.profile.filename = some filename
    · rw [hb, hpref, hn]
      refine .mono (.bind (triple_deleteExisting ?_ (fun _ _ h => h) fun _ _ h => .inl h.1) fun _ =>
        triple_writeVpnFile) (fun d hd => hd.2.2) (fun _ _ h => h) fun _ _ h => h
      exact fun files' r h => ⟨h.1.delete_cpold, h.2⟩
    · exact fun d hd => absurd hd.2.1 hn
  · exact fun d hd => absurd hd.1 hb

end AllInSafe.Storage
