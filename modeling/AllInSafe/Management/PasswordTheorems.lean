import AllInSafe.Library.Runs
import AllInSafe.Management.Passwords

/-!
# One-time key passwords

The starts of sessions for one profile, with the passwords that are cached between them. A run carries what each start
is promised beside what the core is handed.
-/

namespace AllInSafe.Management
open AllInSafe.Library AllInSafe.Config

inductive PasswordEvent
  | setCachedPassword (type : Int) (password : Option Str)
  /-- The query of OpenVPN 2 for the private key. -/
  | privateKeyQuery (mCurrentProxyConnection : Option Connection)
  /-- `setConfig` of OpenVPN 3. -/
  | setConfig
  deriving DecidableEq, Repr

inductive Handed
  | reply (r : PWReply)
  | privateKeyPassword (pw : Option Str)
  deriving DecidableEq, Repr

/-- What a start of a session hands the core, and what it is to hand. -/
structure PasswordUse where
  handed : Handed
  promised : Handed
  deriving DecidableEq, Repr

structure PasswordRun (UUID : Type) where
  mInstance : Option (PasswordCache UUID)
  /-- The key password cached since the previous use. -/
  cached : Option Str
  uses : List PasswordUse := []
  deriving DecidableEq, Repr

variable {UUID : Type}

/-- The key password that the profile stores, by the kind of its authentication. -/
def IdentifiedProfile.storedKeyPassword (vp : IdentifiedProfile UUID) : Option Str :=
  match vp.mAuthenticationType with
  | .PKCS12 | .USERPASS_PKCS12 => vp.mPKCS12Password
  | .CERTIFICATES | .USERPASS_CERTIFICATES => vp.mKeyPassword
  | .KEYSTORE | .USERPASS | .STATICKEYS | .USERPASS_KEYSTORE | .EXTERNAL_APP => none

def privateKeyArgument : Str := "Need 'Private Key' password"

variable [DecidableEq UUID]

namespace PasswordRun

/-- What a start of a session is to hand over. -/
def promised (mVp : IdentifiedProfile UUID) (s : PasswordRun UUID) : Option Str := s.cached.or mVp.storedKeyPassword

def use (mInstance : Option (PasswordCache UUID)) (handed promised : Handed) (s : PasswordRun UUID) : PasswordRun UUID :=
  { mInstance := mInstance, cached := none, uses := s.uses ++ [⟨handed, promised⟩] }

def step (mVp : IdentifiedProfile UUID) (s : PasswordRun UUID) : PasswordEvent → PasswordRun UUID
  | .setCachedPassword type password =>
      { s with
        mInstance := PasswordCache.setCachedPassword mVp.mUuid type password s.mInstance
        cached := if type = PasswordCache.PCKS12ORCERTPASSWORD then password else s.cached }
  | .privateKeyQuery mCurrentProxyConnection =>
      let (reply, mInstance) := processPWCommand mVp mCurrentProxyConnection privateKeyArgument s.mInstance
      s.use mInstance (.reply reply) (.reply (pwReply "Private Key" { pw := s.promised mVp }))
  | .setConfig =>
      let (pw, mInstance) := privateKeyPassword mVp s.mInstance
      s.use mInstance (.privateKeyPassword pw) (.privateKeyPassword (s.promised mVp))

/-- The cache holds what was cached since the previous use. -/
def Tracks (mVp : IdentifiedProfile UUID) (s : PasswordRun UUID) : Prop :=
  (PasswordCache.getInstance mVp.mUuid s.mInstance).mKeyOrPkcs12Password = s.cached

/-- Every start has handed over what it was to hand over. -/
def Kept (s : PasswordRun UUID) : Prop := ∀ u ∈ s.uses, u.handed = u.promised

/-- `setConfig` finds no cached password, or the one that is stored as well. -/
def ReadsOnce (mVp : IdentifiedProfile UUID) (s : PasswordRun UUID) (e : PasswordEvent) : Prop :=
  e = .setConfig → s.cached = none ∨ s.cached = mVp.storedKeyPassword

instance {mVp : IdentifiedProfile UUID} (s : PasswordRun UUID) (e : PasswordEvent) : Decidable (ReadsOnce mVp s e) :=
  inferInstanceAs (Decidable (_ → _))

end PasswordRun

/-- The sessions of one profile, from any content of the cache. -/
def passwordRuns (mVp : IdentifiedProfile UUID) (mInstance : Option (PasswordCache UUID)) :
    Machine (PasswordRun UUID) PasswordEvent where
  init := { mInstance := mInstance, cached := (PasswordCache.getInstance mVp.mUuid mInstance).mKeyOrPkcs12Password }
  step s e := some (s.step mVp e)

variable {mVp : IdentifiedProfile UUID} {mInstance : Option (PasswordCache UUID)} {s : PasswordRun UUID}

/-! ## The functions of the source -/

theorem getPasswordPrivateKey_eq :
    mVp.getPasswordPrivateKey mInstance =
      ((PasswordCache.getInstance mVp.mUuid mInstance).mKeyOrPkcs12Password.or mVp.storedKeyPassword,
        some { PasswordCache.getInstance mVp.mUuid mInstance with mKeyOrPkcs12Password := none }) := by
  simp only [IdentifiedProfile.getPasswordPrivateKey, PasswordCache.getPKCS12orCertificatePassword]
  cases (PasswordCache.getInstance mVp.mUuid mInstance).mKeyOrPkcs12Password with
  | some pw => rfl
  | none => cases h : mVp.mAuthenticationType <;> simp [IdentifiedProfile.storedKeyPassword, h]

@[simp] theorem getInstance_mUuid : (PasswordCache.getInstance mVp.mUuid mInstance).mUuid = mVp.mUuid := by
  cases mInstance with
  | none => rfl
  | some cache =>
      rw [PasswordCache.getInstance]
      split_ifs with h
      · exact h
      · rfl

@[simp] theorem getInstance_some {cache : PasswordCache UUID} (h : cache.mUuid = mVp.mUuid) :
    PasswordCache.getInstance mVp.mUuid (some cache) = cache := by
  rw [PasswordCache.getInstance, if_pos h]

theorem setCachedPassword_key (type : Int) (password : Option Str) :
    (PasswordCache.getInstance mVp.mUuid
        (PasswordCache.setCachedPassword mVp.mUuid type password mInstance)).mKeyOrPkcs12Password =
      if type = PasswordCache.PCKS12ORCERTPASSWORD then password
      else (PasswordCache.getInstance mVp.mUuid mInstance).mKeyOrPkcs12Password := by
  rw [PasswordCache.setCachedPassword]
  split_ifs <;> simp

theorem processPWCommand_privateKey (mCurrentProxyConnection : Option Connection) :
    processPWCommand mVp mCurrentProxyConnection privateKeyArgument mInstance =
      (pwReply "Private Key" { pw := (mVp.getPasswordPrivateKey mInstance).1 },
        (mVp.getPasswordPrivateKey mInstance).2) := by
  have htoken : ¬ Str.startsWith "Auth-Token:" privateKeyArgument := by decide
  have hfailed : ¬ Str.startsWith "Verification Failed" privateKeyArgument := by decide
  have hneeded : neededOf privateKeyArgument = some ("Private Key".toList, " password".toList) := by decide +kernel
  rw [processPWCommand, if_neg htoken, hneeded]
  simp only [if_neg hfailed, credentials, if_pos]

/-- The second read of `setConfig` finds the cache cleared. -/
theorem privateKeyPassword_eq :
    (privateKeyPassword mVp mInstance).1 = mVp.storedKeyPassword ∧
    (PasswordCache.getInstance mVp.mUuid (privateKeyPassword mVp mInstance).2).mKeyOrPkcs12Password = none := by
  simp only [privateKeyPassword, getPasswordPrivateKey_eq]
  split_ifs with h
  · simp
  · rw [not_not, Option.or_eq_none_iff] at h
    simp [h.2]

/-! ## Runs -/

omit [DecidableEq UUID] in
theorem PasswordRun.kept_use {cache : Option (PasswordCache UUID)} {handed promised : Handed} :
    (s.use cache handed promised).Kept ↔ s.Kept ∧ handed = promised := by
  simp [PasswordRun.Kept, PasswordRun.use, or_imp, forall_and]

theorem PasswordRun.step_keeps (h : s.Tracks mVp) (e : PasswordEvent) :
    (s.step mVp e).Tracks mVp ∧ ((s.step mVp e).Kept ↔ s.Kept ∧ s.ReadsOnce mVp e) := by
  rw [PasswordRun.Tracks] at h ⊢
  cases e with
  | setCachedPassword type password =>
      simp only [PasswordRun.step, setCachedPassword_key, h, true_and]
      simp [PasswordRun.Kept, PasswordRun.ReadsOnce]
  | privateKeyQuery mCurrentProxyConnection =>
      simp only [PasswordRun.step, processPWCommand_privateKey, getPasswordPrivateKey_eq, h, PasswordRun.kept_use]
      simp [PasswordRun.use, PasswordRun.promised, PasswordRun.ReadsOnce]
  | setConfig =>
      obtain ⟨hhanded, hcleared⟩ := @privateKeyPassword_eq UUID _ mVp s.mInstance
      simp only [PasswordRun.step, PasswordRun.kept_use, hhanded]
      refine ⟨hcleared, and_congr_right fun _ => ?_⟩
      simp only [PasswordRun.promised, PasswordRun.ReadsOnce, Handed.privateKeyPassword.injEq, true_imp_iff]
      cases s.cached <;> simp [eq_comm]

/-- Every start of a session hands over the password cached since the previous use, or else the stored one, exactly
when `setConfig` never finds a cached password that is not the stored one. -/
theorem passwords_kept_iff {events : List PasswordEvent}
    (hrun : (passwordRuns mVp mInstance).runFrom (passwordRuns mVp mInstance).init events = some s) :
    s.Kept ↔ (passwordRuns mVp mInstance).StepsMeet (PasswordRun.ReadsOnce mVp) (passwordRuns mVp mInstance).init events := by
  have hstep : ∀ s e s', s.Tracks mVp → (passwordRuns mVp mInstance).step s e = some s' →
      s'.Tracks mVp ∧ (s'.Kept ↔ s.Kept ∧ s.ReadsOnce mVp e) := by
    intro s e s' hs he
    cases he
    exact s.step_keeps hs e
  have hinit : (passwordRuns mVp mInstance).init.Kept := fun u hu => absurd hu List.not_mem_nil
  have htracks : (passwordRuns mVp mInstance).init.Tracks mVp := rfl
  rw [Machine.meets_iff hstep htracks hrun]
  exact and_iff_right hinit

/-- A profile with a certificate and the password of its key. -/
def certificateProfile : IdentifiedProfile Nat :=
  { mName := "office", mUuid := 1, mAuthenticationType := .CERTIFICATES, mKeyPassword := some "stored" }

/-- A password typed in for OpenVPN 2, and a start of OpenVPN 3 after it. -/
def typedOnce : List PasswordEvent := [.setCachedPassword 2 (some "typed"), .privateKeyQuery none, .setConfig]

def typedOnceEnd : PasswordRun Nat where
  mInstance := some { mUuid := 1 }
  cached := none
  uses :=
    [⟨.reply (pwReply "Private Key" { pw := some "typed" }), .reply (pwReply "Private Key" { pw := some "typed" })⟩,
      ⟨.privateKeyPassword (some "stored"), .privateKeyPassword (some "stored")⟩]

theorem passwords_kept_iff_typedOnce : typedOnceEnd.Kept :=
  (@passwords_kept_iff Nat _ certificateProfile none typedOnceEnd typedOnce (by decide +kernel)).mpr (by decide +kernel)

/-- A password typed in for OpenVPN 3 is cleared by the first of two reads, and the core gets the stored one. -/
theorem typed_password_lost :
    let events := [PasswordEvent.setCachedPassword 2 (some "typed"), .setConfig]
    ((passwordRuns certificateProfile none).runFrom (passwordRuns certificateProfile none).init events).map
        PasswordRun.uses =
      some [⟨.privateKeyPassword (some "stored"), .privateKeyPassword (some "typed")⟩] := by
  decide +kernel

end AllInSafe.Management
