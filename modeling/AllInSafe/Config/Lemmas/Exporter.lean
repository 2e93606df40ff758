import AllInSafe.Config.Exporter
import AllInSafe.Library.Parts

/-!
# The lines of a generated configuration

Every part of the configuration ends a line, so that a route is a line of its own.
-/

namespace AllInSafe.Config
open AllInSafe.Library

/-! ## Texts that end a line -/

/-- The text is empty or ends with a newline. -/
def endsLine (s : Str) : Bool := s.getLast?.all (· = '\n')

section

variable {s t : Str} {b : Bool}

@[simp] theorem endsLine_nil : endsLine [] = true := rfl

theorem endsLine_append (hs : endsLine s = true) (ht : endsLine t = true) : endsLine (s ++ t) = true := by
  cases ht' : t.getLast? with
  | none => simpa [List.getLast?_eq_none_iff.mp ht'] using hs
  | some c => simpa [endsLine, List.getLast?_append, ht'] using ht

/-- Whatever stands in front, a text that ends a line ends it. -/
theorem endsLine_append_right (s : Str) (hne : t ≠ []) (ht : endsLine t = true) : endsLine (s ++ t) = true := by
  obtain ⟨c, hc⟩ := Option.ne_none_iff_exists'.mp (List.getLast?_eq_none_iff.not.mpr hne)
  simpa [endsLine, List.getLast?_append, hc] using ht

theorem endsLine_newline (s : Str) : endsLine (s ++ "\n") = true :=
  endsLine_append_right s (by decide) (by decide)

theorem endsLine_appendIf (hs : endsLine s = true) : endsLine (appendIf b s) = true := by
  cases b with
  | true => exact hs
  | false => rfl

theorem endsLine_ite {p : Prop} [Decidable p] (hs : endsLine s = true) (ht : endsLine t = true) :
    endsLine (if p then s else t) = true := by
  split
  · exact hs
  · exact ht

theorem endsLine_flatMap {α : Type} {l : List α} {f : α → Str} (h : ∀ a ∈ l, endsLine (f a) = true) :
    endsLine (l.flatMap f) = true := by
  induction l with
  | nil => rfl
  | cons a l ih =>
      rw [List.forall_mem_cons] at h
      exact endsLine_append h.1 (ih h.2)

/-- Between two texts of which the first ends a line, a text without a newline is a line. -/
theorem mem_parts_of_endsLine {line : Str} (hs : endsLine s = true) (hline : '\n' ∉ line) (t : Str) :
    line ∈ Str.parts (· = '\n') (s ++ (line ++ '\n' :: t)) := by
  have hsep : ∀ c ∈ line, decide (c = '\n') = false := fun c hc => decide_eq_false fun heq => hline (heq ▸ hc)
  have hmem : line ∈ Str.parts (· = '\n') (line ++ '\n' :: t) := by
    rw [Str.parts_append_sep (by decide), Str.parts_of_forall hsep]
    simp
  rcases List.eq_nil_or_concat s with rfl | ⟨front, c, rfl⟩
  · exact hmem
  · obtain rfl : c = '\n' := by simpa [endsLine] using hs
    rw [List.concat_eq_append, List.append_assoc, List.singleton_append, Str.parts_append_sep (by decide)]
    exact List.mem_append_right _ hmem

end

/-! ## The parts in front of the routes -/

theorem endsLine_insertFileData (cfgentry : Str) (filedata : Option Str) :
    endsLine (insertFileData cfgentry filedata) = true := by
  cases filedata with
  | none => exact endsLine_append_right _ (by decide) (by decide)
  | some data => exact endsLine_ite (endsLine_append_right _ (by decide) (by decide)) (endsLine_newline _)

theorem endsLine_getConnectionBlock (isOpenVPN3 : Bool) (c : Connection) :
    endsLine (c.getConnectionBlock isOpenVPN3) = true := by
  have hprotocol : ∀ s : Str, endsLine (s ++ (if c.mUseUdp then " udp\n" else " tcp-client\n" : String).toList) = true := by
    intro s
    split
    · exact endsLine_append_right s (by decide) (by decide)
    · exact endsLine_append_right s (by decide) (by decide)
  -- From the last part that may be there to the server, which always is.
  rw [Connection.getConnectionBlock]
  refine endsLine_ite (endsLine_newline _) (endsLine_ite (endsLine_newline _) (endsLine_ite ?_ ?_))
  · exact endsLine_ite (endsLine_append_right _ (by decide) (by decide)) (endsLine_newline _)
  · exact endsLine_ite (endsLine_newline _) (hprotocol _)

namespace StoredProfile

variable {context : Context} {configForOvpn3 : Bool} {vp : StoredProfile}

theorem endsLine_plainRemotes (np : VpnProfile) : endsLine (np.plainRemotes configForOvpn3) = true := by
  rw [VpnProfile.plainRemotes]
  split
  · exact endsLine_getConnectionBlock _ _
  · refine endsLine_append (endsLine_ite (by decide) rfl) (endsLine_ite ?_ rfl)
    exact endsLine_flatMap fun conn _ => endsLine_ite (endsLine_getConnectionBlock _ _) rfl

theorem endsLine_managementOptions : endsLine (vp.managementOptions context configForOvpn3) = true :=
  endsLine_ite (by decide) (endsLine_append_right _ (by decide) (by decide))

theorem endsLine_clientOption : endsLine vp.clientOption = true :=
  endsLine_ite (by decide) (endsLine_ite (by decide) (endsLine_ite (by decide) rfl))

theorem endsLine_retryOptions : endsLine vp.retryOptions = true :=
  endsLine_append_right _ (by decide) (by decide)

theorem endsLine_fileIfSet (cfgentry : Str) (filedata : Option Str) : endsLine (fileIfSet cfgentry filedata) = true :=
  endsLine_appendIf (endsLine_insertFileData _ _)

theorem endsLine_certificateFiles : endsLine vp.certificateFiles = true :=
  endsLine_append (endsLine_append (endsLine_fileIfSet _ _) (endsLine_insertFileData _ _)) (endsLine_insertFileData _ _)

theorem endsLine_pkcs12File : endsLine vp.pkcs12File = true :=
  endsLine_append (endsLine_insertFileData _ _) (endsLine_fileIfSet _ _)

theorem endsLine_keystoreFiles : endsLine (vp.keystoreFiles context configForOvpn3) = true := by
  rw [keystoreFiles]
  cases context.externalCertificates with
  | none => exact endsLine_appendIf (endsLine_append (by decide) (endsLine_newline _))
  | some ks => exact endsLine_appendIf (endsLine_append (by decide) (endsLine_append_right _ (by decide) (by decide)))

theorem endsLine_authenticationOptions : endsLine (vp.authenticationOptions context configForOvpn3) = true := by
  have huser : endsLine authUserPass = true := by decide
  rw [authenticationOptions]
  cases vp.mAuthenticationType with
  | CERTIFICATES => exact endsLine_certificateFiles
  | PKCS12 => exact endsLine_pkcs12File
  | KEYSTORE => exact endsLine_keystoreFiles
  | EXTERNAL_APP => exact endsLine_keystoreFiles
  | USERPASS =>
      exact endsLine_append (endsLine_append huser (endsLine_fileIfSet _ _)) (endsLine_appendIf (by decide))
  | STATICKEYS => rfl
  | USERPASS_CERTIFICATES => exact endsLine_append huser endsLine_certificateFiles
  | USERPASS_PKCS12 => exact endsLine_append huser endsLine_pkcs12File
  | USERPASS_KEYSTORE => exact endsLine_append huser endsLine_keystoreFiles

theorem endsLine_peerOptions : endsLine vp.peerOptions = true := by
  refine endsLine_append (endsLine_append (endsLine_append ?_ ?_) (endsLine_fileIfSet _ _)) (endsLine_appendIf (by decide))
  · exact endsLine_appendIf (endsLine_append_right _ (by decide) (by decide))
  · exact endsLine_appendIf (by decide)

theorem endsLine_tlsAuthOptions : endsLine vp.tlsAuthOptions = true := by
  refine endsLine_appendIf (endsLine_append ?_ (endsLine_appendIf (endsLine_newline _)))
  refine endsLine_ite (endsLine_insertFileData _ _) (endsLine_ite (endsLine_insertFileData _ _) ?_)
  exact endsLine_ite (endsLine_insertFileData _ _) (endsLine_insertFileData _ _)

theorem endsLine_ifconfigOptions : endsLine vp.ifconfigOptions = true := by
  refine endsLine_append (endsLine_appendIf ?_) (endsLine_appendIf (by decide))
  exact endsLine_append (endsLine_appendIf (endsLine_newline _)) (endsLine_appendIf (endsLine_newline _))

theorem endsLine_optionsBeforeRoutes : endsLine (vp.optionsBeforeRoutes context configForOvpn3) = true := by
  have hconnect : endsLine (vp.managementOptions context configForOvpn3 ++ vp.clientOption ++ vp.retryOptions ++
      vp.plainRemotes configForOvpn3) = true :=
    endsLine_append (endsLine_append (endsLine_append endsLine_managementOptions endsLine_clientOption)
      endsLine_retryOptions) (endsLine_plainRemotes _)
  rw [optionsBeforeRoutes]
  refine endsLine_append (endsLine_append (endsLine_append (endsLine_append (endsLine_append hconnect ?_) ?_) ?_) ?_) ?_
  · exact endsLine_authenticationOptions
  · exact endsLine_peerOptions
  · exact endsLine_tlsAuthOptions
  · exact endsLine_ifconfigOptions
  · exact endsLine_appendIf (by decide)

/-! ## The whole text -/

theorem exists_serverOptions (h : vp.mConnections ≠ []) : ∃ options, vp.serverOptions = .ok options := by
  obtain ⟨conn, conns, hconns⟩ := List.exists_cons_of_ne_nil h
  have hname : ∃ name, vp.verifyName = .ok name := by
    rw [verifyName, hconns]
    split
    · exact ⟨_, rfl⟩
    · exact ⟨_, rfl⟩
  obtain ⟨name, hname⟩ := hname
  rw [serverOptions, hname]
  split
  · split
    · exact ⟨_, rfl⟩
    · exact ⟨_, rfl⟩
  · exact ⟨_, rfl⟩

/-- A profile with a connection has a configuration, with the routes behind the options that end a line. -/
theorem exists_getConfigFile (h : vp.mConnections ≠ []) : ∃ after, vp.getConfigFile context configForOvpn3 =
    .ok (vp.optionsBeforeRoutes context configForOvpn3 ++ (vp.routes ++ after)) := by
  obtain ⟨options, hoptions⟩ := exists_serverOptions h
  refine ⟨vp.dnsOptions ++ vp.sizeOptions configForOvpn3 ++ options ++ vp.cipherOptions ++
    vp.obscureOptions context configForOvpn3 ++ vp.customOptions ++ vp.connectionBlocks configForOvpn3, ?_⟩
  simp [getConfigFile, hoptions, bind, Except.bind, pure, Except.pure]

/-! ## The check -/

variable {useOpenVPN3 : Bool}

theorem map_checks : (vp.checks context useOpenVPN3).map (·.2) =
    [.no_keystore_cert_selected, .no_ca_cert_selected, .deprecated_tls_remote, .ipv4_format_error,
      .custom_route_format_error, .custom_route_format_error, .missing_tlsauth, .missing_certificates,
      .remote_no_server_selected, .openvpn3_nostatickeys, .openvpn3_pkcs12, .openvpn3_socksproxy,
      .error_orbot_and_proxy_options, .no_orbotfound, .bf_cbc_requires_legacy] := rfl

/-- In an accepted profile no check applies. -/
theorem of_checkProfile (h : vp.checkProfile context useOpenVPN3 = .no_error_found) {check : Bool × CheckResult}
    (hmem : check ∈ vp.checks context useOpenVPN3) : check.1 = false := by
  rw [← Bool.not_eq_true]
  intro hcheck
  obtain ⟨found, hfound⟩ := Option.isSome_iff_exists.mp (List.find?_isSome.mpr ⟨check, hmem, hcheck⟩)
  have hresult : found.2 ∈ (vp.checks context useOpenVPN3).map (·.2) :=
    List.mem_map_of_mem (List.mem_of_find?_eq_some hfound)
  have hnone : found.2 = .no_error_found := by rwa [checkProfile, hfound] at h
  rw [map_checks, hnone] at hresult
  revert hresult
  decide

theorem mConnections_ne_nil (h : vp.checkProfile context useOpenVPN3 = .no_error_found) : vp.mConnections ≠ [] := by
  have hentry : (vp.checks context useOpenVPN3)[8]? =
      some (!vp.mConnections.any Connection.mEnabled, CheckResult.remote_no_server_selected) := rfl
  have hremote := List.mem_of_getElem? hentry
  intro hnil
  have := of_checkProfile h hremote
  simp [hnil] at this

end StoredProfile

end AllInSafe.Config
