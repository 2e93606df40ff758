import AllInSafe.AppLock.PatternTheorems

/-!
# Unlock requires a set secret
-/

namespace AllInSafe.AppLock
open AllInSafe.Library

/-! ## Kotlin's trim -/

/-- Kotlin's `isWhitespace`: the white space and the space characters of Java. -/
def isWhitespace (c : Char) : Bool :=
  let n := c.toNat
  (0x09 ≤ n && n ≤ 0x0D) || (0x1C ≤ n && n ≤ 0x20) || n = 0xA0 || n = 0x1680 || (0x2000 ≤ n && n ≤ 0x200A) ||
    n = 0x2028 || n = 0x2029 || n = 0x202F || n = 0x205F || n = 0x3000

def trim (s : Str) : Str := (s.dropWhile isWhitespace).rdropWhile isWhitespace

/-! ## What a record says -/

namespace Document

def MarksPin (document : Document) : Prop := ∃ values, document.pin = .array values ∧ values[0]? = some (.long 1)

def StoredPin (document : Document) (pin : Str) : Prop :=
  ∃ values, document.pin = .array values ∧ values[1]? = some (.string pin)

def MarksPattern (document : Document) : Prop :=
  ∃ mark patternData, document.pattern = .array (mark :: patternData) ∧ mark.longValue = some 1

def StoredPattern (document : Document) (pattern : List Nat) : Prop :=
  ∃ mark patternData orders, document.pattern = .array (mark :: patternData) ∧
    patternData.mapM Value.toInt = some orders ∧ savedPattern orders = pattern

end Document

/-- The step has written the time of an unlock or a static field of the service. -/
def Phone.Unlocks (s s' : Phone) : Prop := s'.lastUnlockTime ≠ s.lastUnlockTime ∨ s'.companion ≠ s.companion

/-- On any phone and for any text, the record lets `verifyPin` unlock only for its own PIN, and only if it marks the
PIN as set. -/
def PinGuarded (document : Document) : Prop :=
  ∀ (s : Phone) (now : Nat) (text : Str), s.Unlocks (s.pinVerified now (trim text) (some document)) →
    document.MarksPin ∧ document.StoredPin (trim text)

def PatternGuarded (document : Document) : Prop :=
  ∀ (s : Phone) (now : Nat) (inputPattern : List Nat), s.Unlocks (s.patternVerified now inputPattern (some document)) →
    document.MarksPattern ∧ document.StoredPattern inputPattern

/-! ## The two verifications -/

/-- `verifyPin` compares with the second element, whatever the first one is. -/
theorem verifyPin_verified {inputPin : Str} {document : Document} :
    (∃ r, verifyPin inputPin document = some r ∧ r.verified = true) ↔ document.StoredPin inputPin := by
  obtain ⟨pin, pattern⟩ := document
  cases pin with
  | missing => simp [verifyPin, Field.cast, isPinSet, Document.StoredPin]
  | other => simp [verifyPin, Field.cast, Document.StoredPin]
  | array values =>
      cases values with
      | nil => simp [verifyPin, Field.cast, isPinSet, Document.StoredPin]
      | cons mark values =>
          cases values with
          | nil => simp [verifyPin, Field.cast, isPinSet, Document.StoredPin]
          | cons savedPin values => simp [verifyPin, Field.cast, isPinSet, Document.StoredPin]

theorem verifyPattern_guarded {inputPattern : List Nat} {document : Document}
    (h : verifyPattern inputPattern document = some true) :
    document.MarksPattern ∧ document.StoredPattern inputPattern := by
  obtain ⟨pin, pattern⟩ := document
  cases pattern with
  | missing => simp [verifyPattern, Field.safeCast] at h
  | other => simp [verifyPattern, Field.safeCast] at h
  | array values =>
      cases values with
      | nil => simp [verifyPattern, Field.safeCast] at h
      | cons mark patternData =>
          simp only [verifyPattern, Field.safeCast, Option.bind_eq_bind, Option.bind_eq_some_iff] at h
          obtain ⟨hasPattern, hmark, h⟩ := h
          split_ifs at h with hset
          · obtain ⟨orders, horders, heq⟩ := Option.bind_eq_some_iff.mp h
            have hsaved : savedPattern orders = inputPattern := by simpa [eq_comm] using Option.some.inj heq
            subst hset
            exact ⟨⟨mark, patternData, rfl, hmark⟩, mark, patternData, orders, rfl, horders, hsaved⟩
          · cases h

theorem unlocks_pinVerified {s : Phone} {now : Nat} {inputPin : Str} {document : Document}
    (h : s.Unlocks (s.pinVerified now inputPin (some document))) : document.StoredPin inputPin := by
  apply verifyPin_verified.mp
  cases hverify : verifyPin inputPin document with
  | none => simp [Phone.Unlocks, Phone.pinVerified, hverify] at h
  | some r =>
      refine ⟨r, rfl, ?_⟩
      by_contra hnot
      simp only [Phone.Unlocks, Phone.pinVerified, Option.bind_some, hverify, if_neg hnot] at h
      split_ifs at h <;> simp [Phone.finish] at h

theorem pinVerified_unlocks {inputPin : Str} {document : Document} (h : document.StoredPin inputPin) :
    Phone.Unlocks {} (({} : Phone).pinVerified 0 inputPin (some document)) := by
  obtain ⟨r, hverify, hverified⟩ := verifyPin_verified.mpr h
  left
  simp [Phone.pinVerified, hverify, hverified, Phone.unlock]

/-- Every record: `verifyPin` and `verifyPattern` unlock only with a secret that the record marks as set and that is
entered, exactly when the record marks the PIN as set or stores no PIN that can be entered. -/
theorem unlock_guarded_iff (document : Document) :
    PinGuarded document ∧ PatternGuarded document ↔ document.MarksPin ∨ ∀ text, ¬ document.StoredPin (trim text) := by
  constructor
  · rintro ⟨hpin, -⟩
    by_cases hstored : ∃ text, document.StoredPin (trim text)
    · obtain ⟨text, hstored⟩ := hstored
      exact .inl (hpin {} 0 text (pinVerified_unlocks hstored)).1
    · exact .inr (not_exists.mp hstored)
  · intro hcond
    constructor
    · intro s now text hunlocks
      have hstored := unlocks_pinVerified hunlocks
      rcases hcond with hmarks | hnone
      · exact ⟨hmarks, hstored⟩
      · exact absurd hstored (hnone text)
    · intro s now inputPattern hunlocks
      apply verifyPattern_guarded
      by_contra hnot
      simp [Phone.Unlocks, Phone.patternVerified, hnot] at hunlocks

/-! ## The records of the setup screens -/

/-- The pattern that is set up resets the PIN to the empty text, and this text unlocks. -/
theorem not_pinGuarded_setPattern {pattern : List Nat} {document stored : Document}
    (h : document.setPattern pattern = some stored) : ¬ PinGuarded stored := by
  intro hguarded
  obtain ⟨data, -, hstored⟩ := Option.bind_eq_some_iff.mp h
  cases hstored
  obtain ⟨⟨values, hvalues, hmark⟩, -⟩ := hguarded {} 0 [] (pinVerified_unlocks ⟨_, rfl, rfl⟩)
  cases hvalues
  cases hmark

theorem pinGuarded_savePin (pin : Str) (document : Document) : PinGuarded (document.savePin pin) := by
  intro s now text hunlocks
  exact ⟨⟨_, rfl, rfl⟩, unlocks_pinVerified hunlocks⟩

/-- The forwarding has opened the screen of the PIN, a pattern is set up meanwhile, and no text at all unlocks. -/
theorem empty_pin_unlocks :
    let document : Document := ⟨.array [.long 0, .string []], .array ([1, 1, 2].map .long)⟩
    let s : Phone := { companion := { onoff := true, isLockActivityRunning := true }, task := [.pin_verify], front := true }
    ((s.pinVerified 20000 (trim []) (some document)).lastUnlockTime = some 20000 ∧
      (s.pinVerified 20000 (trim []) (some document)).companion.isLockActivityRunning = false) ∧
      ¬ (PinGuarded document ∧ PatternGuarded document) := by
  refine ⟨by decide, ?_⟩
  rintro ⟨hguarded, -⟩
  obtain ⟨⟨values, hvalues, hmark⟩, -⟩ := hguarded {} 0 [] (pinVerified_unlocks ⟨_, rfl, rfl⟩)
  cases hvalues
  cases hmark

end AllInSafe.AppLock
