import AllInSafe.Config.Lemmas.Decimal
import AllInSafe.Library.Parts
import AllInSafe.Tun.Messages

/-!
# The texts of addresses, written and read
-/

namespace AllInSafe.Tun
open AllInSafe.Library AllInSafe.Config
open AllInSafe.Routes (IpAddress Inet6Address)

/-! ## The characters of addresses -/

def addressChars : List Char := "0123456789abcdef:.".toList

theorem ne_of_mem_addressChars {c : Char} (h : c ∈ addressChars) : c ≠ ' ' ∧ c ≠ '/' := by
  revert c
  decide

theorem mem_toDigits {b n : Nat} (hb : 1 < b) {c : Char} (h : c ∈ Nat.toDigits b n) : ∃ d < b, c = Nat.digitChar d := by
  induction n using Nat.strongRecOn with
  | ind n ih =>
      rw [Nat.toDigits_eq_if hb] at h
      split at h
      case isTrue hlt => exact ⟨n, hlt, List.mem_singleton.mp h⟩
      case isFalse hge =>
          rcases List.mem_append.mp h with h | h
          · exact ih (n / b) (Nat.div_lt_self (by omega) hb) h
          · exact ⟨n % b, Nat.mod_lt n (by omega), List.mem_singleton.mp h⟩

theorem mem_decimal {n : Nat} {c : Char} (h : c ∈ decimal n) : c ∈ "0123456789".toList := by
  rw [decimal, Nat.toList_repr] at h
  obtain ⟨d, hd, rfl⟩ := mem_toDigits (by decide) h
  clear h
  revert d
  decide

theorem mem_hex {n : Nat} {c : Char} (h : c ∈ hex n) : c ∈ "0123456789abcdef".toList := by
  obtain ⟨d, hd, rfl⟩ := mem_toDigits (by decide) h
  clear h
  revert d
  decide

theorem digit_ne {c : Char} (h : c ∈ "0123456789".toList) : c ≠ ' ' ∧ c ≠ '/' ∧ c ≠ '.' := by
  revert c
  decide

theorem hexDigit_mem_addressChars {c : Char} (h : c ∈ "0123456789abcdef".toList) : c ∈ addressChars := by
  revert c
  decide

theorem digit_mem_addressChars {c : Char} (h : c ∈ "0123456789".toList) : c ∈ addressChars := by
  revert c
  decide

theorem mem_dotted {a b c d : Nat} {x : Char}
    (h : x ∈ decimal a ++ "." ++ decimal b ++ "." ++ decimal c ++ "." ++ decimal d) : x ∈ "0123456789.".toList := by
  have hdigit : ∀ x ∈ "0123456789".toList, x ∈ "0123456789.".toList := by decide
  have hdot : ∀ x ∈ ".".toList, x ∈ "0123456789.".toList := by decide
  simp only [List.mem_append] at h
  rcases h with ((((((h | h) | h) | h) | h) | h) | h)
  · exact hdigit x (mem_decimal h)
  · exact hdot x h
  · exact hdigit x (mem_decimal h)
  · exact hdot x h
  · exact hdigit x (mem_decimal h)
  · exact hdot x h
  · exact hdigit x (mem_decimal h)

theorem mem_print_in_addr_t {ip : InAddr} {c : Char} (h : c ∈ ip.print_in_addr_t) : c ∈ "0123456789.".toList :=
  mem_dotted h

theorem mem_colons {texts : List Str} {c : Char} (h : c ∈ Literal.colons texts) : c = ':' ∨ ∃ t ∈ texts, c ∈ t :=
  Str.mem_intercalate h

theorem mem_literal {l : Literal} {c : Char} (h : c ∈ l.text) : c ∈ addressChars := by
  have hdotted : ∀ c ∈ "0123456789.".toList, c ∈ addressChars := by decide
  have hpart : ∀ groups : List UInt16, ∀ t ∈ Literal.groupTexts groups ++ l.dotted.toList.map InAddr.print_in_addr_t,
      ∀ c ∈ t, c ∈ addressChars := by
    intro groups t ht c hc
    rcases List.mem_append.mp ht with ht | ht
    · obtain ⟨g, -, rfl⟩ := List.mem_map.mp ht
      exact hexDigit_mem_addressChars (mem_hex hc)
    · obtain ⟨ip, -, rfl⟩ := List.mem_map.mp ht
      exact hdotted c (mem_print_in_addr_t hc)
  have hcolons : ∀ groups : List UInt16, ∀ c ∈ Literal.colons (Literal.groupTexts groups ++
      l.dotted.toList.map InAddr.print_in_addr_t), c ∈ addressChars := by
    intro groups c hc
    rcases mem_colons hc with rfl | ⟨t, ht, hc⟩
    · decide
    · exact hpart groups t ht c hc
  have hfront : ∀ groups : List UInt16, ∀ c ∈ Literal.colons (Literal.groupTexts groups), c ∈ addressChars := by
    intro groups c hc
    rcases mem_colons hc with rfl | ⟨t, ht, hc⟩
    · decide
    · exact hpart groups t (List.mem_append_left _ ht) c hc
  cases hback : l.back with
  | none =>
      simp only [Literal.text, hback] at h
      exact hcolons l.front c h
  | some back =>
      simp only [Literal.text, hback, List.mem_append] at h
      rcases h with (h | h) | h
      · exact hfront l.front c h
      · revert h
        revert c
        decide
      · exact hcolons back c h

/-! ## Numbers of addresses -/

theorem decimal_ne {n : Nat} : ∀ c ∈ decimal n, c ≠ ' ' ∧ c ≠ '/' ∧ c ≠ '.' := fun _ hc => digit_ne (mem_decimal hc)

theorem print_in_addr_t_ne {ip : InAddr} : ∀ c ∈ ip.print_in_addr_t, c ≠ ' ' ∧ c ≠ '/' := by
  have hne : ∀ c ∈ "0123456789.".toList, c ≠ ' ' ∧ c ≠ '/' := by decide
  exact fun c hc => hne c (mem_print_in_addr_t hc)

theorem split_dotted {a b c d : Str} (ha : ∀ x ∈ a, x ≠ '.') (hb : ∀ x ∈ b, x ≠ '.') (hc : ∀ x ∈ c, x ≠ '.')
    (hd : ∀ x ∈ d, x ≠ '.') (hne : d ≠ []) :
    Str.split (· = '.') (a ++ "." ++ b ++ "." ++ c ++ "." ++ d) = [a, b, c, d] := by
  have hsep : ∀ {t : Str}, (∀ x ∈ t, x ≠ '.') → ∀ x ∈ t, (decide (x = '.')) = false := by
    intro t ht x hx
    exact decide_eq_false (ht x hx)
  have htext : a ++ "." ++ b ++ "." ++ c ++ "." ++ d = (a ++ '.' :: (b ++ '.' :: c)) ++ '.' :: d := by simp
  rw [htext, Str.split_append_sep (by decide) hne (hsep hd), Str.parts_append_sep (by decide),
    Str.parts_append_sep (by decide), Str.parts_of_forall (hsep ha), Str.parts_of_forall (hsep hb),
    Str.parts_of_forall (hsep hc)]
  rfl

theorem wrap_of_lt {bits n : Nat} (hbits : 0 < bits) (h : n < 2 ^ (bits - 1)) : wrap bits (n : Int) = n := by
  have hpow : 2 ^ bits = 2 * 2 ^ (bits - 1) := by
    rw [← Nat.pow_succ']
    congr 1
    omega
  rw [wrap, Int.bmod_eq_of_le] <;> omega

/-- Four numbers below 256 are read as the bytes of an address. -/
theorem getInt_dotted {a b c d : Nat} (ha : a < 256) (hb : b < 256) (hc : c < 256) (hd : d < 256) :
    CIDRIP.getInt (decimal a ++ "." ++ decimal b ++ "." ++ decimal c ++ "." ++ decimal d) =
      .ok ((a * 2 ^ 24 + b * 2 ^ 16 + c * 2 ^ 8 + d : Nat) : Int) := by
  have hdot : ∀ n, ∀ x ∈ decimal n, x ≠ '.' := fun n x hx => (decimal_ne x hx).2.2
  have hparse : ∀ {bits n : Nat}, n < 256 → 256 ≤ 2 ^ (bits - 1) → parseInteger bits (decimal n) = .ok (n : Int) :=
    fun hn hbits => parseInteger_decimal (hn.trans_le hbits)
  have ha64 : parseLong (decimal a) = .ok (a : Int) := hparse ha (by decide)
  have hb32 : parseInt (decimal b) = .ok (b : Int) := hparse hb (by decide)
  have hc32 : parseInt (decimal c) = .ok (c : Int) := hparse hc (by decide)
  have hd32 : parseInt (decimal d) = .ok (d : Int) := hparse hd (by decide)
  have hwrap₁ : wrap 64 ((a : Int) * 2 ^ 24) = (a * 2 ^ 24 : Nat) := by
    exact_mod_cast wrap_of_lt (n := a * 2 ^ 24) (by decide) (by omega)
  have hwrap₂ : wrap 32 ((b : Int) * 2 ^ 16) = (b * 2 ^ 16 : Nat) := by
    exact_mod_cast wrap_of_lt (n := b * 2 ^ 16) (by decide) (by omega)
  have hwrap₃ : wrap 32 ((c : Int) * 2 ^ 8) = (c * 2 ^ 8 : Nat) := by
    exact_mod_cast wrap_of_lt (n := c * 2 ^ 8) (by decide) (by omega)
  have hsum₁ : wrap 64 (((a * 2 ^ 24 : Nat) : Int) + (b * 2 ^ 16 : Nat)) = (a * 2 ^ 24 + b * 2 ^ 16 : Nat) := by
    exact_mod_cast wrap_of_lt (n := a * 2 ^ 24 + b * 2 ^ 16) (by decide) (by omega)
  have hsum₂ : wrap 64 (((a * 2 ^ 24 + b * 2 ^ 16 : Nat) : Int) + (c * 2 ^ 8 : Nat)) =
      (a * 2 ^ 24 + b * 2 ^ 16 + c * 2 ^ 8 : Nat) := by
    exact_mod_cast wrap_of_lt (n := a * 2 ^ 24 + b * 2 ^ 16 + c * 2 ^ 8) (by decide) (by omega)
  have hsum₃ : wrap 64 (((a * 2 ^ 24 + b * 2 ^ 16 + c * 2 ^ 8 : Nat) : Int) + d) =
      (a * 2 ^ 24 + b * 2 ^ 16 + c * 2 ^ 8 + d : Nat) := by
    exact_mod_cast wrap_of_lt (n := a * 2 ^ 24 + b * 2 ^ 16 + c * 2 ^ 8 + d) (by decide) (by omega)
  rw [CIDRIP.getInt, split_dotted (hdot a) (hdot b) (hdot c) (hdot d) (decimal_ne_nil d)]
  simp only [Config.get, List.getElem?_cons_zero, List.getElem?_cons_succ, bind, Except.bind, ha64, hb32, hc32, hd32,
    pure, Except.pure, hwrap₁, hwrap₂, hwrap₃, hsum₁, hsum₂, hsum₃]

theorem getInt_print_in_addr_t (ip : InAddr) : CIDRIP.getInt ip.print_in_addr_t = .ok (ip.value : Int) :=
  getInt_dotted ip.a.toNat_lt ip.b.toNat_lt ip.c.toNat_lt ip.d.toNat_lt

theorem InAddr.value_lt (ip : InAddr) : ip.value < 2 ^ 32 := by
  have ha := ip.a.toNat_lt
  have hb := ip.b.toNat_lt
  have hc := ip.c.toNat_lt
  have hd := ip.d.toNat_lt
  rw [InAddr.value]
  omega

end AllInSafe.Tun
