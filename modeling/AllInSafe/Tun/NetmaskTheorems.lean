import AllInSafe.Tun.Lemmas.Addresses

/-!
# Netmasks of routes
-/

namespace AllInSafe.Tun
open AllInSafe.Library AllInSafe.Config

/-- The dotted form of a netmask with `n` leading ones. -/
def dottedNetmask (n : Nat) : Str := (InAddr.ofValue (2 ^ 32 - 2 ^ (32 - n))).print_in_addr_t

/-- The conversion ends, and it gives the number of leading ones or 32. -/
structure NetmaskExact (mask : Str) (len : Nat) : Prop where
  converts : CIDRIP.calculateLenFromMask mask = .ok len
  le : len ≤ 32
  ofDotted : ∀ n ≤ 32, mask = dottedNetmask n → len = n
  ofOther : (∀ n ≤ 32, mask ≠ dottedNetmask n) → len = 32

/-- The route line has stored a route with a valid prefix length. -/
def StoresRoute (np np' : VpnProfile) : Prop :=
  ∃ cidr : CIDRIP, cidr.len ≤ 32 ∧
    (np' = { np with mExcludedRoutes := some (np.mExcludedRoutes.getD [] ++ cidr.toString ++ " ") } ∨
      np' = { np with mCustomRoutes := some (np.mCustomRoutes.getD [] ++ cidr.toString ++ " ") })

example : dottedNetmask 20 = "255.255.240.0".toList := by decide

/-! ## Dotted netmasks -/

theorem two_pow_le {n : Nat} : 2 ^ (32 - n) ≤ 2 ^ 32 := Nat.pow_le_pow_right Nat.two_pos (Nat.sub_le 32 n)

theorem InAddr.value_ofValue {n : Nat} (h : n < 2 ^ 32) : (InAddr.ofValue n).value = n := by
  simp only [InAddr.value, InAddr.ofValue, UInt8.toNat_ofNat']
  omega

theorem getInt_dottedNetmask (n : Nat) : CIDRIP.getInt (dottedNetmask n) = .ok (2 ^ 32 - 2 ^ (32 - n) : Int) := by
  have hpos : 0 < 2 ^ (32 - n) := Nat.two_pow_pos _
  rw [dottedNetmask, getInt_print_in_addr_t, InAddr.value_ofValue (by omega), Nat.cast_sub two_pow_le]
  push_cast
  rfl

theorem two_pow_inj {m n : Nat} (hm : m ≤ 32) (hn : n ≤ 32)
    (h : (2 ^ 32 - 2 ^ (32 - m) : Int) = 2 ^ 32 - 2 ^ (32 - n)) : m = n := by
  have hpow : (2 : Int) ^ (32 - m) = 2 ^ (32 - n) := by omega
  have hexp : 32 - m = 32 - n := Nat.pow_right_injective le_rfl (by exact_mod_cast hpow)
  omega

/-! ## Route lines -/

theorem addRoute_stores {np np' : VpnProfile} {route : List Str} (h : Paragraph.addRoute np route = .ok np') :
    StoresRoute np np' := by
  rw [Paragraph.addRoute] at h
  split at h
  all_goals
    obtain ⟨netmask, -, h⟩ := bind_eq_ok.mp h
    dsimp only at h
    split at h
    all_goals
      obtain ⟨gateway, -, h⟩ := bind_eq_ok.mp h
      obtain ⟨net, -, h⟩ := bind_eq_ok.mp h
      split at h
      · cases h
      · cases h
      · cases h
      · rename_i cidr hcidr
        refine ⟨cidr, CIDRIP.ofNetmask_le hcidr, ?_⟩
        split at h
        · exact .inl (Except.ok.inj h).symm
        · exact .inr (Except.ok.inj h).symm

/-! ## When the conversion is exact -/

/-- For every text whose octets are numbers, the conversion ends with the number of leading ones of a dotted netmask
and with 32 for any other text, and a route line that is accepted with the netmask stores a valid length, exactly when
the sum of the shifted octets does not cancel the 33rd bit and no other text than a dotted netmask has its sum. -/
theorem netmaskExact_iff {mask : Str} {s : Int} (h : CIDRIP.getInt mask = .ok s) :
    ((∃ len, NetmaskExact mask len) ∧ ∀ np np' route, route[2]?.getD (dottedNetmask 32) = mask →
      Paragraph.addRoute np route = .ok np' → StoresRoute np np') ↔
    s ≠ -2 ^ 32 ∧ ∀ n < 32, s = 2 ^ 32 - 2 ^ (32 - n) → mask = dottedNetmask n := by
  have hdotted : ∀ n ≤ 32, mask = dottedNetmask n → s = 2 ^ 32 - 2 ^ (32 - n) := by
    intro n _ hmask
    rw [hmask] at h
    exact Except.ok.inj (h.symm.trans (getInt_dottedNetmask n))
  have hones : ∀ n ≤ 32, s = 2 ^ 32 - 2 ^ (32 - n) → CIDRIP.calculateLenFromMask mask = .ok n := by
    rintro n hn rfl
    rw [CIDRIP.calculateLenFromMask_prefix (Nat.sub_le 32 n) h, Nat.sub_sub_self hn]
  constructor
  · rintro ⟨⟨len, hexact⟩, -⟩
    refine ⟨?_, fun n hn hs => ?_⟩
    · rintro rfl
      have hconverts := hexact.converts
      rw [CIDRIP.calculateLenFromMask_endless h] at hconverts
      cases hconverts
    · obtain rfl : len = n := Except.ok.inj (hexact.converts.symm.trans (hones n hn.le hs))
      by_contra hne
      refine absurd (hexact.ofOther fun m hm hmask => ?_) hn.ne
      obtain rfl := two_pow_inj hm hn.le ((hdotted m hm hmask).symm.trans hs)
      exact hne hmask
  · rintro ⟨hendless, honly⟩
    refine ⟨?_, fun _ _ _ _ hroute => addRoute_stores hroute⟩
    by_cases hsum : ∃ n ≤ 32, s = 2 ^ 32 - 2 ^ (32 - n)
    · obtain ⟨n, hn, hs⟩ := hsum
      refine ⟨n, hones n hn hs, hn, fun m hm hmask => ?_, fun hother => ?_⟩
      · exact two_pow_inj hn hm (hs.symm.trans (hdotted m hm hmask))
      · by_contra hne
        exact hother n hn (honly n (lt_of_le_of_ne hn hne) hs)
    · have hother : ∀ k ≤ 32, s ≠ 2 ^ 32 - 2 ^ k := fun k hk hs =>
        hsum ⟨32 - k, Nat.sub_le _ _, by rwa [Nat.sub_sub_self hk]⟩
      refine ⟨32, CIDRIP.calculateLenFromMask_other h hendless hother, le_rfl, fun m hm hmask => ?_, fun _ => rfl⟩
      exact absurd ⟨m, hm, hdotted m hm hmask⟩ hsum

theorem netmaskExact_twenty : (∃ len, NetmaskExact (dottedNetmask 20) len) ∧ ∀ np np' route,
    route[2]?.getD (dottedNetmask 32) = dottedNetmask 20 → Paragraph.addRoute np route = .ok np' →
      StoresRoute np np' :=
  (netmaskExact_iff (getInt_dottedNetmask 20)).mpr
    ⟨by decide, fun _ hn hs => congrArg dottedNetmask (two_pow_inj (by decide) hn.le hs)⟩

/-- A negative octet cancels the 33rd bit, and octets out of range may have the sum of a netmask. -/
theorem negative_octet_endless :
    (CIDRIP.getInt "-256.0.0.0" = .ok (-2 ^ 32) ∧ CIDRIP.calculateLenFromMask "-256.0.0.0" = .error .endless) ∧
      CIDRIP.calculateLenFromMask "254.256.0.0" = .ok 8 := by
  have hnegative : CIDRIP.getInt "-256.0.0.0" = .ok (-2 ^ 32) := by decide
  have hlarge : CIDRIP.getInt "254.256.0.0" = .ok (2 ^ 32 - 2 ^ 24) := by decide
  exact ⟨⟨hnegative, CIDRIP.calculateLenFromMask_endless hnegative⟩,
    CIDRIP.calculateLenFromMask_prefix (by decide) hlarge⟩

end AllInSafe.Tun
