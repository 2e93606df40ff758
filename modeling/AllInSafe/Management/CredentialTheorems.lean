import AllInSafe.Management.Lemmas.CommandLine

/-!
# Credentials on the management interface
-/

namespace AllInSafe.Management
open AllInSafe.Library AllInSafe.Config

/-- The commands with their values, in the order in which they are written. -/
def Credentials.sent (c : Credentials) : List (Str × Str) :=
  match c.pw with
  | some pw => c.username.elim [] (fun username => [("username".toList, username)]) ++ [("password".toList, pw)]
  | none => []

/-- No NUL, no line end, and room for the bytes in a parameter of OpenVPN. -/
def Sendable (value : Str) : Prop :=
  NUL ∉ value ∧ '\r' ∉ value ∧ '\n' ∉ value ∧ (Utf8.octets value).length ≤ OPTION_PARM_SIZE

instance {value : Str} : Decidable (Sendable value) := inferInstanceAs (Decidable (_ ∧ _))

variable {UUID : Type} [DecidableEq UUID] {mProfile : IdentifiedProfile UUID} {mCurrentProxyConnection : Option Connection}
  {mInstance mInstance' : Option (PasswordCache UUID)} {argument needed args : Str} {cmds : List Str} {c : Credentials}

theorem needed_of_credentials {pw : Str}
    (h : (credentials mProfile mCurrentProxyConnection needed mInstance).1.pw = some pw) :
    needed ∈ ["Private Key".toList, "Auth".toList, "HTTP Proxy".toList] := by
  unfold credentials at h
  split_ifs at h with h₁ h₂ h₃
  · simp [h₁]
  · simp [h₂]
  · simp [h₃]

theorem commands_eq (hneeded : neededOf argument = some (needed, args))
    (h : processPWCommand mProfile mCurrentProxyConnection argument mInstance = (.managmentCommands cmds, mInstance')) :
    pwReply needed (credentials mProfile mCurrentProxyConnection needed mInstance).1 = .managmentCommands cmds := by
  simp only [processPWCommand, hneeded] at h
  split_ifs at h with htoken hfailed
  · cases h
  · cases h
  · exact congrArg Prod.fst h

theorem commands_of_pwReply (h : pwReply needed c = .managmentCommands cmds) :
    c.pw.isSome ∧ cmds = c.sent.map fun p => credentialCommand p.1 needed p.2 := by
  obtain ⟨username, pw⟩ := c
  cases pw with
  | none => cases h
  | some pw =>
      cases h
      cases username <;> simp [Credentials.sent]

theorem word_of_mem_sent {p : Str × Str} (h : p ∈ c.sent) : Word p.1 ∧ p.1.length = 8 := by
  have huser : Word "username" ∧ ("username" : Str).length = 8 := by decide
  have hpass : Word "password" ∧ ("password" : Str).length = 8 := by decide
  obtain ⟨username, pw⟩ := c
  cases pw with
  | none => cases h
  | some pw =>
      rcases List.mem_append.mp h with h | h
      · cases username with
        | none => cases h
        | some username => rw [List.mem_singleton.mp h]; exact huser
      · rw [List.mem_singleton.mp h]; exact hpass

/-- OpenVPN reads from every command its name, the name of the authentication and the stored value exactly when the
values have no control characters. -/
theorem processPWCommand_delivers_iff (hneeded : neededOf argument = some (needed, args))
    (h : processPWCommand mProfile mCurrentProxyConnection argument mInstance = (.managmentCommands cmds, mInstance'))
    (hc : (credentials mProfile mCurrentProxyConnection needed mInstance).1 = c) (hsend : ∀ p ∈ c.sent, Sendable p.2) :
    cmds.map received = c.sent.map (fun p => some [p.1, needed, Utf8.octets p.2]) ↔
      ∀ p ∈ c.sent, ∀ ch ∈ p.2, isPrint ch = true := by
  obtain ⟨hpw, rfl⟩ := commands_of_pwReply (hc ▸ commands_eq hneeded h)
  obtain ⟨pw, hpw⟩ := Option.isSome_iff_exists.mp hpw
  have hnames : ∀ s ∈ ["Private Key".toList, "Auth".toList, "HTTP Proxy".toList], Name s ∧ s.length ≤ 11 := by decide
  obtain ⟨hname, hlength⟩ := hnames needed (needed_of_credentials (hc ▸ hpw))
  rw [List.map_map, List.map_inj_left]
  refine forall_congr' fun p => forall_congr' fun hp => ?_
  obtain ⟨-, -, hvalue, hsize⟩ := hsend p hp
  obtain ⟨hword, height⟩ := word_of_mem_sent hp
  exact received_eq_iff hword hname hvalue (by rw [height, OPTION_PARM_SIZE]; omega) hsize

/-- The profile of a user with this password. -/
def userProfile (password : Str) : IdentifiedProfile Nat :=
  { mName := "office", mUuid := 1, mAuthenticationType := .USERPASS, mUsername := some "j\"ö", mPassword := password }

def authQuery : Str := "Need 'Auth' username/password"

def specialCredentials : Credentials := { username := some "j\"ö", pw := some "#1 \\" }

theorem processPWCommand_delivers_iff_special :
    [credentialCommand "username" "Auth" "j\"ö", credentialCommand "password" "Auth" "#1 \\"].map received =
      specialCredentials.sent.map fun p => some [p.1, "Auth".toList, Utf8.octets p.2] :=
  (@processPWCommand_delivers_iff Nat _ (userProfile "#1 \\") none none (some { mUuid := 1 }) authQuery "Auth"
    " username/password" [credentialCommand "username" "Auth" "j\"ö", credentialCommand "password" "Auth" "#1 \\"]
    specialCredentials (by decide +kernel) (by decide +kernel) (by decide +kernel) (by decide +kernel)).mpr
    (by decide +kernel)

def tabbedPassword : Str := "password 'Auth' a\tb"

/-- The tab of a password is not read; where it is, it separates two parameters. -/
theorem tab_lost :
    (processPWCommand (userProfile "a\tb") none authQuery none).1 =
      .managmentCommands [credentialCommand "username" "Auth" "j\"ö", tabbedPassword ++ "\n"] ∧
    Sendable "a\tb" ∧
    received (tabbedPassword ++ "\n") = some ["password".toList, "Auth".toList, "ab".toList] ∧
    (man_process_command tabbedPassword).toOption =
      some ["password".toList, "Auth".toList, "a".toList, "b".toList] := by
  decide +kernel

end AllInSafe.Management
