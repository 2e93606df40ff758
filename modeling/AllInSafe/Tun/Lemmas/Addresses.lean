import AllInSafe.Config.Lemmas.Netmasks
import AllInSafe.Tun.Lemmas.Texts

/-!
# Netmasks, and addresses without their host bits
-/

namespace AllInSafe.Tun
open AllInSafe.Library AllInSafe.Config
open AllInSafe.Routes (IpAddress Inet6Address)

variable {ip netmask : InAddr} {len : Nat}

/-! ## Netmasks -/

theorem calculateLenFromMask_print (netmask : InAddr) :
    ∃ len ≤ 32, CIDRIP.calculateLenFromMask netmask.print_in_addr_t = .ok len := by
  obtain ⟨len, hlen⟩ := CIDRIP.calculateLenFromMask_ne_error (getInt_print_in_addr_t netmask) (by omega)
  exact ⟨len, CIDRIP.calculateLenFromMask_le hlen, hlen⟩

theorem ofNetmask_print (ip netmask : InAddr) :
    ∃ len ≤ 32, CIDRIP.ofNetmask ip.print_in_addr_t netmask.print_in_addr_t = .ok ⟨ip.print_in_addr_t, len⟩ := by
  obtain ⟨len, hle, hlen⟩ := calculateLenFromMask_print netmask
  refine ⟨len, hle, ?_⟩
  simp only [CIDRIP.ofNetmask, hlen, bind, Except.bind, pure, Except.pure]

/-! ## Nets -/

theorem netOf_print (ip : InAddr) (len : Nat) (included : Bool) :
    netOf ⟨ip.print_in_addr_t, len⟩ included = .ok ⟨ip.value, len, included, true⟩ := by
  simp only [netOf, getInt_print_in_addr_t, bind, Except.bind, pure, Except.pure, IpAddress.ofCIDRIP, Int.toNat_natCast]

/-- The address of a number below 2^32. -/
def InAddr.ofValue (n : Nat) : InAddr :=
  ⟨.ofNat (n / 2 ^ 24), .ofNat (n / 2 ^ 16), .ofNat (n / 2 ^ 8), .ofNat n⟩

theorem dottedText_ofValue {n : Nat} (h : n < 2 ^ 32) : dottedText n = (InAddr.ofValue n).print_in_addr_t := by
  have hfirst : n / 2 ^ 24 % 2 ^ 8 = n / 2 ^ 24 := Nat.mod_eq_of_lt (by omega)
  have hint : ∀ m : Nat, decimalInt (m : Int) = decimal m := fun _ => rfl
  have hcast : ∀ k, ((n : Int) / 2 ^ k) = ((n / 2 ^ k : Nat) : Int) := fun k => by push_cast; rfl
  have hmod : ∀ m : Nat, ((m : Int) % 256) = ((m % 256 : Nat) : Int) := fun m => by push_cast; rfl
  simp only [dottedText, InAddr.print_in_addr_t, InAddr.ofValue, UInt8.toNat_ofNat', hcast, hmod, hint, hfirst]

theorem normalise_print (ip : InAddr) (len : Nat) :
    ∃ changed ip', normalise ⟨ip.print_in_addr_t, len⟩ = .ok (changed, ⟨InAddr.print_in_addr_t ip', len⟩) := by
  have hlt := ip.value_lt
  have hbits : BitVec.ofInt 64 (ip.value : Int) = BitVec.ofNat 64 ip.value := BitVec.ofInt_natCast _ _
  -- Masking makes the number no larger.
  have hmasked : (BitVec.ofNat 64 ip.value &&& (0xffffffff#64 <<< (32 - len))).toNat < 2 ^ 32 := by
    rw [BitVec.toNat_and, BitVec.toNat_ofNat]
    exact Nat.and_le_left.trans_lt (by omega)
  have hint : (BitVec.ofNat 64 ip.value &&& (0xffffffff#64 <<< (32 - len))).toInt =
      ((BitVec.ofNat 64 ip.value &&& (0xffffffff#64 <<< (32 - len))).toNat : Int) :=
    BitVec.toInt_eq_toNat_of_lt (by omega)
  simp only [normalise, getInt_print_in_addr_t, bind, Except.bind, hbits, hint, pure, Except.pure]
  split
  case isTrue => exact ⟨true, _, by rw [dottedText_ofValue hmasked]⟩
  case isFalse => exact ⟨false, ip, rfl⟩

theorem localLen_print (ip netmask : InAddr) (mode : Str) (hlen : len ≤ 32) :
    ∃ len' ≤ 32, OpenVPNService.localLen ⟨ip.print_in_addr_t, len⟩ netmask.print_in_addr_t mode = .ok len' := by
  simp only [OpenVPNService.localLen, getInt_print_in_addr_t, bind, Except.bind, pure, Except.pure]
  split
  case isTrue =>
      refine ⟨_, ?_, rfl⟩
      split
      case isTrue => split <;> decide
      case isFalse => split <;> decide
  case isFalse => exact ⟨len, hlen, rfl⟩

end AllInSafe.Tun
