import AllInSafe.Tun.Alike

/-!
# Which nets have one text

An IPv4 net can be read back from its text. The text of an IPv6 address says where a run of zeros at its end begins but not
how long it is.
-/

namespace AllInSafe.Tun
open AllInSafe.Library AllInSafe.Config
open AllInSafe.Routes (IpAddress)

/-! ## IPv4 -/

theorem dot_notMem_decimal (n : Nat) : '.' ∉ decimal n := fun h => (decimal_ne '.' h).2.2 rfl

theorem slash_notMem_decimal (n : Nat) : '/' ∉ decimal n := fun h => (decimal_ne '/' h).2.1 rfl

theorem split_getIPv4Address (ip : Nat) : Str.split (· = '.') (getIPv4Address ip) =
    [decimal (ip / 2 ^ 24 % 256), decimal (ip / 2 ^ 16 % 256), decimal (ip / 2 ^ 8 % 256), decimal (ip % 256)] := by
  have hdot : ∀ n, ∀ x ∈ decimal n, x ≠ '.' := fun n x hx => (decimal_ne x hx).2.2
  exact split_dotted (hdot _) (hdot _) (hdot _) (hdot _) (decimal_ne_nil _)

theorem getIPv4Address_inj {ip ip' : Nat} (hip : ip < 2 ^ 32) (hip' : ip' < 2 ^ 32)
    (h : getIPv4Address ip = getIPv4Address ip') : ip = ip' := by
  have hsplit := congrArg (Str.split (· = '.')) h
  rw [split_getIPv4Address, split_getIPv4Address] at hsplit
  simp only [List.cons.injEq, and_true] at hsplit
  obtain ⟨ha, hb, hc, hd⟩ := hsplit
  have ha := decimal_inj ha
  have hb := decimal_inj hb
  have hc := decimal_inj hc
  have hd := decimal_inj hd
  omega

/-! ## Hexadecimal numbers -/

theorem digitChar_inj {d d' : Nat} (hd : d < 16) (hd' : d' < 16) (h : d.digitChar = d'.digitChar) : d = d' := by
  have hall : ∀ d < 16, ∀ d' < 16, d.digitChar = d'.digitChar → d = d' := by decide
  exact hall d hd d' hd' h

theorem hex_of_lt {n : Nat} (h : n < 16) : hex n = [n.digitChar] := Nat.toDigits_of_lt_base h

theorem hex_of_le {n : Nat} (h : 16 ≤ n) : hex n = hex (n / 16) ++ [(n % 16).digitChar] :=
  Nat.toDigits_of_base_le (by decide) h

theorem hex_ne_nil (n : Nat) : hex n ≠ [] := Nat.toDigits_ne_nil

theorem hex_inj {m n : Nat} (h : hex m = hex n) : m = n := by
  induction m using Nat.strongRecOn generalizing n with
  | ind m ih =>
      by_cases hm : m < 16
      · by_cases hn : n < 16
        · rw [hex_of_lt hm, hex_of_lt hn] at h
          exact digitChar_inj hm hn (List.singleton_inj.mp h)
        · rw [hex_of_lt hm, hex_of_le (by omega)] at h
          have hlength := congrArg List.length h
          have hpos := List.length_pos_iff.mpr (hex_ne_nil (n / 16))
          simp only [List.length_append, List.length_singleton] at hlength
          omega
      · by_cases hn : n < 16
        · rw [hex_of_lt hn, hex_of_le (by omega)] at h
          have hlength := congrArg List.length h
          have hpos := List.length_pos_iff.mpr (hex_ne_nil (m / 16))
          simp only [List.length_append, List.length_singleton] at hlength
          omega
        · rw [hex_of_le (not_lt.mp hm), hex_of_le (not_lt.mp hn)] at h
          obtain ⟨hdiv, hmod⟩ := List.append_inj' h rfl
          have hdiv := ih (m / 16) (by omega) hdiv
          have hmod := digitChar_inj (Nat.mod_lt m (by decide)) (Nat.mod_lt n (by decide)) (List.singleton_inj.mp hmod)
          omega

theorem colon_notMem_hex (n : Nat) : ':' ∉ hex n := by
  intro h
  have hmem := mem_hex h
  revert hmem
  decide

/-! ## The groups of an IPv6 address -/

/-- The groups that are left, each with its colon. -/
def groupsText (r : Nat) : Str :=
  if _h : r = 0 then [] else groupsText (r / 0x10000) ++ hex (r % 0x10000) ++ [':']
termination_by r
decreasing_by omega

theorem groupsText_zero : groupsText 0 = [] := by
  rw [groupsText]
  rfl

theorem groupsText_of_ne {r : Nat} (h : r ≠ 0) :
    groupsText r = groupsText (r / 0x10000) ++ hex (r % 0x10000) ++ [':'] := by
  rw [groupsText, dif_neg h]

/-- Behind groups a text without a colon begins where they end. -/
theorem groupsText_append_inj {r r' : Nat} {t t' : Str} (ht : ':' ∉ t) (ht' : ':' ∉ t')
    (h : groupsText r ++ t = groupsText r' ++ t') : groupsText r = groupsText r' ∧ t = t' := by
  by_cases hr : r = 0
  · subst hr
    by_cases hr' : r' = 0
    · subst hr'
      exact ⟨rfl, List.append_cancel_left h⟩
    · rw [groupsText_zero, List.nil_append, groupsText_of_ne hr'] at h
      exact absurd (h ▸ by simp) ht
  · by_cases hr' : r' = 0
    · subst hr'
      rw [groupsText_zero, List.nil_append, groupsText_of_ne hr] at h
      exact absurd (h ▸ by simp) ht'
    · rw [groupsText_of_ne hr, groupsText_of_ne hr', List.append_assoc _ [':'] t, List.append_assoc _ [':'] t'] at h
      obtain ⟨hgroups, rfl⟩ := Str.append_cons_inj_last ht ht' h
      rw [groupsText_of_ne hr, groupsText_of_ne hr', hgroups]
      exact ⟨rfl, rfl⟩

theorem groupsText_inj {r r' : Nat} (h : groupsText r = groupsText r') : r = r' := by
  induction r using Nat.strongRecOn generalizing r' with
  | ind r ih =>
      by_cases hr : r = 0
      · subst hr
        by_cases hr' : r' = 0
        · exact hr'.symm
        · rw [groupsText_zero, groupsText_of_ne hr'] at h
          simp at h
      · by_cases hr' : r' = 0
        · subst hr'
          rw [groupsText_zero, groupsText_of_ne hr] at h
          simp at h
        · rw [groupsText_of_ne hr, groupsText_of_ne hr'] at h
          obtain ⟨hgroups, hhex⟩ :=
            groupsText_append_inj (colon_notMem_hex _) (colon_notMem_hex _) (List.append_cancel_right h)
          have hdiv := ih (r / 0x10000) (by omega) hgroups
          have hmod := hex_inj hhex
          omega

/-! ## getIPv6Address -/

/-- With a text behind it every group is printed. -/
theorem ipv6Loop_some {fuel r : Nat} (h : r ≤ fuel) (str : Str) :
    ipv6Loop fuel r (some str) false = some (groupsText r ++ str) := by
  induction fuel generalizing r str with
  | zero =>
      obtain rfl : r = 0 := by omega
      rw [groupsText_zero]
      rfl
  | succ fuel ih =>
      by_cases hr : r = 0
      · subst hr
        rw [groupsText_zero]
        rfl
      · have hstep : ipv6Loop (fuel + 1) r (some str) false =
            ipv6Loop fuel (r / 0x10000) (some (hex (r % 0x10000) ++ ':' :: str)) false := by
          simp [ipv6Loop, hr]
        rw [hstep, ih (by omega), groupsText_of_ne hr]
        simp

/-- The number without the groups of zeros at its end. -/
def stripped (r : Nat) : Nat :=
  if _h : r ≠ 0 ∧ r % 0x10000 = 0 then stripped (r / 0x10000) else r
termination_by r
decreasing_by omega

theorem stripped_of_zeros {r : Nat} (hr : r ≠ 0) (hzeros : r % 0x10000 = 0) : stripped r = stripped (r / 0x10000) := by
  rw [stripped, dif_pos ⟨hr, hzeros⟩]

theorem stripped_of_ne {r : Nat} (h : r % 0x10000 ≠ 0) : stripped r = r := by
  rw [stripped, dif_neg fun hr => h hr.2]

/-- A run of zeros at the end is not printed. -/
theorem ipv6Loop_none {fuel r : Nat} (h : r ≤ fuel) (hr : r ≠ 0) :
    ipv6Loop fuel r none false = some (groupsText (stripped r) ++ [':']) := by
  induction fuel generalizing r with
  | zero => exact absurd (by omega) hr
  | succ fuel ih =>
      by_cases hzeros : r % 0x10000 = 0
      · have hstep : ipv6Loop (fuel + 1) r none false = ipv6Loop fuel (r / 0x10000) none false := by
          simp [ipv6Loop, hr, hzeros]
        rw [hstep, ih (by omega) (by omega), stripped_of_zeros hr hzeros]
      · have hstep : ipv6Loop (fuel + 1) r none false =
            ipv6Loop fuel (r / 0x10000) (some (hex (r % 0x10000) ++ ':' :: [':'])) false := by
          simp [ipv6Loop, hr, hzeros]
        rw [hstep, ipv6Loop_some (by omega), stripped_of_ne hzeros, groupsText_of_ne hr]
        simp

theorem getIPv6Address_zero : getIPv6Address 0 = "::".toList := rfl

theorem getIPv6Address_of_zeros {r : Nat} (hr : r ≠ 0) (hzeros : r % 0x10000 = 0) :
    getIPv6Address r = groupsText (stripped r) ++ [':'] := by
  obtain ⟨fuel, rfl⟩ := Nat.exists_eq_succ_of_ne_zero hr
  have hstep : ipv6Loop (fuel + 1) (fuel + 1) none true = ipv6Loop fuel ((fuel + 1) / 0x10000) none false := by
    simp [ipv6Loop, hzeros]
  rw [getIPv6Address, Nat.succ_eq_add_one, hstep, ipv6Loop_none (by omega) (by omega), stripped_of_zeros hr hzeros]
  rfl

theorem getIPv6Address_of_ne {r : Nat} (h : r % 0x10000 ≠ 0) :
    getIPv6Address r = groupsText (r / 0x10000) ++ hex (r % 0x10000) := by
  have hr : r ≠ 0 := by
    rintro rfl
    exact h rfl
  obtain ⟨fuel, rfl⟩ := Nat.exists_eq_succ_of_ne_zero hr
  have hstep : ipv6Loop (fuel + 1) (fuel + 1) none true =
      ipv6Loop fuel ((fuel + 1) / 0x10000) (some (hex ((fuel + 1) % 0x10000))) false := by
    simp only [Nat.succ_eq_add_one] at h
    simp [ipv6Loop, h]
  rw [getIPv6Address, Nat.succ_eq_add_one, hstep, ipv6Loop_some (by omega)]
  rfl

theorem stripped_mul {g : Nat} (hg : g ≠ 0) (k : Nat) : stripped (g * 0x10000 ^ k) = stripped g := by
  induction k with
  | zero => rw [Nat.pow_zero, Nat.mul_one]
  | succ k ih =>
      have hpos : g * 0x10000 ^ k ≠ 0 := Nat.mul_ne_zero hg (by positivity)
      have hmul : g * 0x10000 ^ (k + 1) = g * 0x10000 ^ k * 0x10000 := by rw [Nat.pow_succ, Nat.mul_assoc]
      rw [hmul, stripped_of_zeros (by omega) (by omega), Nat.mul_div_cancel _ (by decide), ih]

theorem eq_stripped_mul {r : Nat} (hr : r ≠ 0) (hzeros : r % 0x10000 = 0) :
    ∃ k, 0 < k ∧ r = stripped r * 0x10000 ^ k := by
  induction r using Nat.strongRecOn with
  | ind r ih =>
      rw [stripped_of_zeros hr hzeros]
      by_cases hnext : r / 0x10000 % 0x10000 = 0
      · obtain ⟨k, hk, heq⟩ := ih (r / 0x10000) (by omega) (by omega) hnext
        refine ⟨k + 1, by omega, ?_⟩
        rw [Nat.pow_succ, ← Nat.mul_assoc, ← heq]
        omega
      · refine ⟨1, by decide, ?_⟩
        rw [stripped_of_ne hnext, Nat.pow_one]
        omega

theorem mod_zerosMoved {g k : Nat} (hk : 0 < k) : g * 0x10000 ^ k % 0x10000 = 0 := by
  obtain ⟨k, rfl⟩ := Nat.exists_eq_succ_of_ne_zero hk.ne'
  rw [Nat.pow_succ, ← Nat.mul_assoc]
  exact Nat.mul_mod_left _ _

theorem getIPv6Address_of_zerosMoved {n n' : Nat} (h : ZerosMoved n n') : getIPv6Address n = getIPv6Address n' := by
  obtain ⟨g, k, k', hk, hk', rfl, rfl⟩ := h
  by_cases hg : g = 0
  · simp [hg]
  · have hpos : ∀ k, g * 0x10000 ^ k ≠ 0 := fun k => Nat.mul_ne_zero hg (by positivity)
    rw [getIPv6Address_of_zeros (hpos k) (mod_zerosMoved hk), getIPv6Address_of_zeros (hpos k') (mod_zerosMoved hk'),
      stripped_mul hg, stripped_mul hg]

/-- A text that ends in a colon is not one that ends in a digit. -/
theorem groupsText_ne_hex {r n : Nat} {t : Str} : t ++ [':'] ≠ groupsText r ++ hex n := by
  intro h
  obtain ⟨front, last, hlast⟩ := List.eq_nil_or_concat (hex n) |>.resolve_left (hex_ne_nil n)
  have hmem : last ∈ hex n := by rw [hlast]; simp
  rw [hlast, List.concat_eq_append, ← List.append_assoc] at h
  obtain ⟨-, hcolon⟩ := List.append_inj' h rfl
  exact colon_notMem_hex n (List.singleton_inj.mp hcolon ▸ hmem)

theorem ends_getIPv6Address {n : Nat} (h : n % 0x10000 = 0) : ∃ t, getIPv6Address n = t ++ [':'] := by
  by_cases hn : n = 0
  · subst hn
    exact ⟨[':'], rfl⟩
  · exact ⟨_, getIPv6Address_of_zeros hn h⟩

/-- The text of a number that is not zero begins with a group. -/
theorem zero_ne_groupsText (r : Nat) : "::".toList ≠ groupsText r ++ [':'] := by
  intro h
  have hlit : [':'] ++ [':'] = "::".toList := rfl
  have hcolons : groupsText r = [':'] := (List.append_cancel_right (hlit.trans h)).symm
  by_cases hzero : r = 0
  · rw [hzero, groupsText_zero] at hcolons
    cases hcolons
  · rw [groupsText_of_ne hzero] at hcolons
    have hlength := congrArg List.length hcolons
    have hpos := List.length_pos_iff.mpr (hex_ne_nil (r % 0x10000))
    simp only [List.length_append, List.length_singleton] at hlength
    omega

theorem eq_or_zerosMoved {n n' : Nat} (hends : n % 0x10000 = 0) (hends' : n' % 0x10000 = 0)
    (h : getIPv6Address n = getIPv6Address n') : n = n' ∨ ZerosMoved n n' := by
  by_cases hn : n = 0
  · subst hn
    by_cases hn' : n' = 0
    · exact .inl hn'.symm
    · rw [getIPv6Address_zero, getIPv6Address_of_zeros hn' hends'] at h
      exact absurd h (zero_ne_groupsText _)
  · by_cases hn' : n' = 0
    · subst hn'
      rw [getIPv6Address_zero, getIPv6Address_of_zeros hn hends] at h
      exact absurd h.symm (zero_ne_groupsText _)
    · rw [getIPv6Address_of_zeros hn hends, getIPv6Address_of_zeros hn' hends'] at h
      have hstripped := groupsText_inj (List.append_cancel_right h)
      obtain ⟨k, hk, heq⟩ := eq_stripped_mul hn hends
      obtain ⟨k', hk', heq'⟩ := eq_stripped_mul hn' hends'
      rw [← hstripped] at heq'
      exact .inr ⟨stripped n, k, k', hk, hk', heq, heq'⟩

/-- Two addresses have one text when they are one address, or end in zeros and are the same but for how many. -/
theorem getIPv6Address_eq_iff {n n' : Nat} : getIPv6Address n = getIPv6Address n' ↔ n = n' ∨ ZerosMoved n n' := by
  constructor
  · intro h
    by_cases hends : n % 0x10000 = 0
    · by_cases hends' : n' % 0x10000 = 0
      · exact eq_or_zerosMoved hends hends' h
      · obtain ⟨t, ht⟩ := ends_getIPv6Address hends
        rw [ht, getIPv6Address_of_ne hends'] at h
        exact absurd h groupsText_ne_hex
    · by_cases hends' : n' % 0x10000 = 0
      · obtain ⟨t, ht⟩ := ends_getIPv6Address hends'
        rw [ht, getIPv6Address_of_ne hends] at h
        exact absurd h.symm groupsText_ne_hex
      · rw [getIPv6Address_of_ne hends, getIPv6Address_of_ne hends'] at h
        obtain ⟨hgroups, hhex⟩ := groupsText_append_inj (colon_notMem_hex _) (colon_notMem_hex _) h
        have hdiv := groupsText_inj hgroups
        have hmod := hex_inj hhex
        left
        omega
  · rintro (rfl | h)
    · rfl
    · exact getIPv6Address_of_zerosMoved h

/-! ## netText -/

theorem mem_getIPv4Address {ip : Nat} {c : Char} (h : c ∈ getIPv4Address ip) : c ∈ "0123456789.".toList := mem_dotted h

theorem mem_groupsText {r : Nat} {c : Char} (h : c ∈ groupsText r) : c ∈ "0123456789abcdef:".toList := by
  have hhex : ∀ c ∈ "0123456789abcdef".toList, c ∈ "0123456789abcdef:".toList := by decide
  induction r using Nat.strongRecOn with
  | ind r ih =>
      by_cases hr : r = 0
      · rw [hr, groupsText_zero] at h
        cases h
      · rw [groupsText_of_ne hr, List.mem_append, List.mem_append] at h
        rcases h with (h | h) | h
        · exact ih (r / 0x10000) (by omega) h
        · exact hhex c (mem_hex h)
        · obtain rfl := List.mem_singleton.mp h
          decide

theorem mem_getIPv6Address {r : Nat} {c : Char} (h : c ∈ getIPv6Address r) : c ∈ "0123456789abcdef:".toList := by
  have hhex : ∀ c ∈ "0123456789abcdef".toList, c ∈ "0123456789abcdef:".toList := by decide
  by_cases hends : r % 0x10000 = 0
  · by_cases hr : r = 0
    · rw [hr, getIPv6Address_zero] at h
      revert h
      revert c
      decide
    · rw [getIPv6Address_of_zeros hr hends, List.mem_append] at h
      rcases h with h | h
      · exact mem_groupsText h
      · obtain rfl := List.mem_singleton.mp h
        decide
  · rw [getIPv6Address_of_ne hends, List.mem_append] at h
    rcases h with h | h
    · exact mem_groupsText h
    · exact hhex c (mem_hex h)

/-- The address in front of the slash. -/
def addressText (net : IpAddress) : Str :=
  if net.isV4 then getIPv4Address net.netAddress else getIPv6Address net.netAddress

theorem netText_eq (net : IpAddress) : netText net = addressText net ++ '/' :: decimal net.networkMask := by
  simp [netText, addressText]

theorem mem_addressText {net : IpAddress} {c : Char} (h : c ∈ addressText net) : c ∈ addressChars := by
  have hv4 : ∀ c ∈ "0123456789.".toList, c ∈ addressChars := by decide
  have hv6 : ∀ c ∈ "0123456789abcdef:".toList, c ∈ addressChars := by decide
  rw [addressText] at h
  split at h
  · exact hv4 c (mem_getIPv4Address h)
  · exact hv6 c (mem_getIPv6Address h)

theorem slash_notMem_addressText (net : IpAddress) : '/' ∉ addressText net :=
  fun h => (ne_of_mem_addressChars (mem_addressText h)).2 rfl

theorem netText_inj {net net' : IpAddress} (h : netText net = netText net') :
    addressText net = addressText net' ∧ net.networkMask = net'.networkMask := by
  rw [netText_eq, netText_eq] at h
  obtain ⟨haddress, hmask⟩ := Str.append_cons_inj (slash_notMem_addressText net) (slash_notMem_addressText net') h
  exact ⟨haddress, decimal_inj hmask⟩

theorem netText_inj_v4 {net net' : IpAddress} (hnet : IsNet4 net) (hnet' : IsNet4 net')
    (hincluded : net.included = net'.included) (h : netText net = netText net') : net = net' := by
  obtain ⟨haddress, hmask⟩ := netText_inj h
  obtain ⟨hv4, hlt, -⟩ := hnet
  obtain ⟨hv4', hlt', -⟩ := hnet'
  rw [addressText, addressText, if_pos hv4, if_pos hv4'] at haddress
  have hvalue := getIPv4Address_inj hlt hlt' haddress
  cases net
  cases net'
  simp_all

theorem netText_eq_iff_v6 {net net' : IpAddress} (hnet : net.isV4 = false) (hnet' : net'.isV4 = false) :
    netText net = netText net' ↔ AlikeNets6 net net' := by
  have haddress : addressText net = addressText net' ↔
      net.netAddress = net'.netAddress ∨ ZerosMoved net.netAddress net'.netAddress := by
    simp only [addressText, hnet, hnet', Bool.false_eq_true, if_false, getIPv6Address_eq_iff]
  constructor
  · intro h
    obtain ⟨htext, hmask⟩ := netText_inj h
    exact ⟨hmask, haddress.mp htext⟩
  · rintro ⟨hmask, halike⟩
    rw [netText_eq, netText_eq, haddress.mpr halike, hmask]

end AllInSafe.Tun
