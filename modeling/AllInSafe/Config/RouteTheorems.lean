import AllInSafe.Config.Lemmas.Decimal
import AllInSafe.Config.Lemmas.Exporter

/-!
# The routes of an accepted profile
-/

namespace AllInSafe.Config
open AllInSafe.Library

/-- The route that the token stands for has a line of the configuration. -/
def HasRouteLine (token gateway cfg : Str) : Prop :=
  ∃ cidrroute, cidrToIPAndNetmask token = some cidrroute ∧ routeLine cidrroute gateway ∈ Str.parts (· = '\n') cfg

/-- Every token of the custom and of the excluded routes is a route of the configuration. -/
def StoredProfile.LosesNoRoute (context : Context) (configForOvpn3 : Bool) (vp : StoredProfile) : Prop :=
  ∃ cfg, vp.getConfigFile context configForOvpn3 = .ok cfg ∧
    (∀ token ∈ routeTokens (vp.mCustomRoutes.getD []), HasRouteLine token "vpn_gateway" cfg) ∧
    ∀ token ∈ routeTokens (vp.mExcludedRoutes.getD []), HasRouteLine token "net_gateway" cfg

section

variable {token route gateway : Str} {tokens : List Str}

/-! ## Routes without newlines -/

theorem newline_notMem_netmaskText (len : Nat) : '\n' ∉ netmaskText len := by
  have hdecimal : ∀ n, '\n' ∉ decimal n := fun n h => by
    have hdigit := isDigit_of_mem_decimal h
    revert hdigit
    decide
  have hdot : '\n' ∉ ".".toList := by decide
  simp only [netmaskText, List.mem_append, hdecimal, hdot, or_self, not_false_iff]

theorem newline_notMem_token {routes : Str} (h : token ∈ routeTokens routes) : '\n' ∉ token := by
  intro hmem
  have hsep := (Str.mem_split (List.mem_of_mem_filter h) hmem).2
  revert hsep
  decide

/-- A route has the characters of its token, blanks and those of the netmask. -/
theorem newline_notMem_route (htoken : '\n' ∉ token) (h : cidrToIPAndNetmask token = some route) : '\n' ∉ route := by
  have hparts : ∀ w ∈ (if (Str.split (· = '/') token).length = 1 then Str.split (· = '/') (token ++ "/32")
      else Str.split (· = '/') token), '\n' ∉ w := by
    intro w hw hmem
    split at hw
    · have hslash : '\n' ∉ "/32".toList := by decide
      exact (List.mem_append.mp (Str.mem_split hw hmem).1).elim htoken hslash
    · exact htoken (Str.mem_split hw hmem).1
  rw [cidrToIPAndNetmask] at h
  split at h
  · rename_i ip len heq
    have hip := hparts ip (by rw [heq]; exact List.mem_cons_self)
    split at h
    · split at h
      · cases h
      · cases h
        simp [hip, newline_notMem_netmaskText]
    · cases h
  · cases h

theorem newline_notMem_routeLine (hgateway : '\n' ∉ gateway) (hroute : '\n' ∉ route) :
    '\n' ∉ routeLine route gateway := by
  have hroute' : '\n' ∉ "route ".toList := by decide
  have hblank : '\n' ∉ " ".toList := by decide
  intro h
  rcases List.mem_append.mp h with h | h
  · rcases List.mem_append.mp h with h | h
    · exact (List.mem_append.mp h).elim hroute' hroute
    · exact hblank h
  · exact hgateway h

/-! ## The routes that are written -/

/-- Where every token converts, the loop does not return early. -/
theorem mem_cidrRoutes (hall : ∀ t ∈ tokens, (cidrToIPAndNetmask t).isSome) (htoken : token ∈ tokens) :
    ∃ route ∈ cidrRoutes tokens, cidrToIPAndNetmask token = some route := by
  induction tokens with
  | nil => cases htoken
  | cons t tokens ih =>
      rw [List.forall_mem_cons] at hall
      obtain ⟨r, hr⟩ := Option.isSome_iff_exists.mp hall.1
      rw [cidrRoutes, hr]
      rcases List.mem_cons.mp htoken with rfl | htoken
      · exact ⟨r, List.mem_cons_self, hr⟩
      · obtain ⟨route, hroute, heq⟩ := ih hall.2 htoken
        exact ⟨route, List.mem_cons_of_mem r hroute, heq⟩

theorem mem_getCustomRoutes {routes : Option Str}
    (hall : ∀ t ∈ routeTokens (routes.getD []), (cidrToIPAndNetmask t).isSome)
    (htoken : token ∈ routeTokens (routes.getD [])) :
    ∃ route ∈ getCustomRoutes routes, cidrToIPAndNetmask token = some route := by
  cases routes with
  | none =>
      rw [show routeTokens (none.getD []) = [] from rfl] at htoken
      cases htoken
  | some routes => exact mem_cidrRoutes hall htoken

/-- A line that is written for every element of a list is a line of the text. -/
theorem mem_parts_flatMap {lines : List Str} {f : Str → Str} {before after line : Str}
    (hbefore : endsLine before = true) (hnewline : '\n' ∉ f line) (hline : line ∈ lines) :
    f line ∈ Str.parts (· = '\n') (before ++ (lines.flatMap fun l => (f l ++ "\n" : Str)) ++ after) := by
  obtain ⟨front, back, rfl⟩ := List.append_of_mem hline
  have htext : before ++ ((front ++ line :: back).flatMap fun l => (f l ++ "\n" : Str)) ++ after =
      before ++ (front.flatMap fun l => (f l ++ "\n" : Str)) ++
        (f line ++ '\n' :: ((back.flatMap fun l => (f l ++ "\n" : Str)) ++ after)) := by simp
  rw [htext]
  exact mem_parts_of_endsLine (endsLine_append hbefore (endsLine_flatMap fun _ _ => endsLine_newline _)) hnewline _

/-! ## When no route is lost -/

namespace StoredProfile

variable {context : Context} {configForOvpn3 useOpenVPN3 : Bool} {vp : StoredProfile}

theorem newline_notMem_vpn_gateway : '\n' ∉ "vpn_gateway".toList := by decide

theorem newline_notMem_net_gateway : '\n' ∉ "net_gateway".toList := by decide

/-- The routes for IPv6 behind the others. -/
theorem routes_eq (h : vp.mUseDefaultRoute = false) : ∃ rest, vp.routes =
    (getCustomRoutes vp.mCustomRoutes).flatMap (fun route => (routeLine route "vpn_gateway" ++ "\n" : Str)) ++
      ((getCustomRoutes vp.mExcludedRoutes).flatMap (fun route => (routeLine route "net_gateway" ++ "\n" : Str)) ++
        rest) := by
  rw [routes, h]
  exact ⟨_, List.append_assoc _ _ _⟩

/-- The configuration of an accepted profile has a route line for every token of the two lists exactly when every token
is well formed: the check asks for one route only, and behind a malformed token the others are left out. -/
theorem losesNoRoute_iff (hroutes : vp.mUseDefaultRoute = false)
    (hcheck : vp.checkProfile context useOpenVPN3 = .no_error_found) : vp.LosesNoRoute context configForOvpn3 ↔
    ∀ token ∈ routeTokens (vp.mCustomRoutes.getD []) ++ routeTokens (vp.mExcludedRoutes.getD []),
      (cidrToIPAndNetmask token).isSome := by
  rw [List.forall_mem_append]
  constructor
  · rintro ⟨cfg, -, hcustom, hexcluded⟩
    refine ⟨fun token htoken => ?_, fun token htoken => ?_⟩
    · obtain ⟨route, hroute, -⟩ := hcustom token htoken
      rw [hroute]
      rfl
    · obtain ⟨route, hroute, -⟩ := hexcluded token htoken
      rw [hroute]
      rfl
  · rintro ⟨hcustom, hexcluded⟩
    obtain ⟨after, hcfg⟩ := @exists_getConfigFile context configForOvpn3 vp (mConnections_ne_nil hcheck)
    obtain ⟨rest, hrest⟩ := routes_eq hroutes
    have hbefore := @endsLine_optionsBeforeRoutes context configForOvpn3 vp
    refine ⟨_, hcfg, fun token htoken => ?_, fun token htoken => ?_⟩
    · obtain ⟨route, hmem, hroute⟩ := mem_getCustomRoutes hcustom htoken
      have hnewline := newline_notMem_routeLine newline_notMem_vpn_gateway
        (newline_notMem_route (newline_notMem_token htoken) hroute)
      refine ⟨route, hroute, ?_⟩
      rw [hrest, List.append_assoc, ← List.append_assoc]
      exact @mem_parts_flatMap _ (fun route => routeLine route "vpn_gateway") _ _ _ hbefore hnewline hmem
    · obtain ⟨route, hmem, hroute⟩ := mem_getCustomRoutes hexcluded htoken
      have hnewline := newline_notMem_routeLine newline_notMem_net_gateway
        (newline_notMem_route (newline_notMem_token htoken) hroute)
      refine ⟨route, hroute, ?_⟩
      rw [hrest, List.append_assoc, List.append_assoc, ← List.append_assoc, ← List.append_assoc]
      refine @mem_parts_flatMap _ (fun route => routeLine route "net_gateway") _ _ _ ?_ hnewline hmem
      exact endsLine_append hbefore (endsLine_flatMap fun _ _ => endsLine_newline _)

/-- A phone without anything special, and a profile with these routes. -/
def plainContext : Context := ⟨"/cache", "app 1", "35", none, true, none, "no access", false⟩

def routedProfile (routes : Str) : StoredProfile :=
  { mName := "office", mAuthenticationType := .USERPASS, mUseDefaultRoute := false, mCustomRoutes := some routes }

theorem losesNoRoute_two : (routedProfile "10.0.0.0/8 192.168.0.0/16").LosesNoRoute plainContext false := by
  have hcheck : (routedProfile "10.0.0.0/8 192.168.0.0/16").checkProfile plainContext false = .no_error_found := by
    decide
  exact (losesNoRoute_iff rfl hcheck).mpr (by decide)

/-- The profile is accepted, but only the route in front of the malformed one is written. -/
theorem losesRoute_malformed :
    (routedProfile "10.0.0.0/8 10.1.0.0/99 192.168.0.0/16").checkProfile plainContext false = .no_error_found ∧
      getCustomRoutes (some "10.0.0.0/8 10.1.0.0/99 192.168.0.0/16") = ["10.0.0.0  255.0.0.0".toList] ∧
      ¬ (routedProfile "10.0.0.0/8 10.1.0.0/99 192.168.0.0/16").LosesNoRoute plainContext false := by
  have hmalformed : cidrToIPAndNetmask "10.1.0.0/99" = none := by decide
  have htoken : "10.1.0.0/99".toList ∈ routeTokens "10.0.0.0/8 10.1.0.0/99 192.168.0.0/16" := by decide
  refine ⟨by decide, by decide, ?_⟩
  rintro ⟨cfg, -, hcustom, -⟩
  obtain ⟨route, hroute, -⟩ := hcustom _ htoken
  rw [hmalformed] at hroute
  cases hroute

end StoredProfile

end

end AllInSafe.Config
