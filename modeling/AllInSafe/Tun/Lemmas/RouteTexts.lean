import AllInSafe.Tun.Lemmas.NetTexts

/-!
# The routes of a configuration in its string
-/

namespace AllInSafe.Tun
open AllInSafe.Library AllInSafe.Config
open AllInSafe.Routes (IpAddress)

/-! ## A number in front of a text -/

theorem decimal_two {n : Nat} (h : 10 ≤ n) (hn : n < 100) :
    decimal n = [(n / 10).digitChar, (n % 10).digitChar] := by
  have hsplit : 10 * (n / 10) + n % 10 = n := Nat.div_add_mod n 10
  rw [← hsplit, decimal_concat (by omega) (by omega), decimal_of_lt (by omega), hsplit]
  rfl

theorem decimal_append_of_moved {n n' : Nat} {t t' : Str} (h : Moved n t n' t') : decimal n ++ t = decimal n' ++ t' := by
  obtain ⟨hpos, d, hd, rfl, rfl⟩ := h
  rw [decimal_concat hpos hd, List.append_assoc]
  rfl

/-- Numbers of one and of two digits. -/
theorem moved_of_decimal_append {n n' : Nat} {t t' : Str} (hn : n < 10) (hn' : 10 ≤ n') (hlt : n' < 100)
    (h : decimal n ++ t = decimal n' ++ t') : Moved n t n' t' := by
  rw [decimal_of_lt hn, decimal_two hn' hlt] at h
  obtain ⟨hfirst, hrest⟩ := List.cons.inj h
  have hdiv := digitChar_inj (by omega) (by omega) hfirst
  exact ⟨by omega, n' % 10, by omega, by omega, hrest⟩

theorem decimal_append_iff {n n' : Nat} {t t' : Str} (hn : n < 100) (hn' : n' < 100) :
    decimal n ++ t = decimal n' ++ t' ↔ n = n' ∧ t = t' ∨ DigitMoved n t n' t' := by
  constructor
  · intro h
    by_cases hone : n < 10
    · by_cases hone' : n' < 10
      · rw [decimal_of_lt hone, decimal_of_lt hone'] at h
        obtain ⟨hfirst, hrest⟩ := List.cons.inj h
        exact .inl ⟨digitChar_inj (by omega) (by omega) hfirst, hrest⟩
      · exact .inr (.inl (moved_of_decimal_append hone (not_lt.mp hone') hn' h))
    · by_cases hone' : n' < 10
      · exact .inr (.inr (moved_of_decimal_append hone' (not_lt.mp hone) hn h.symm))
      · have hlength : (decimal n).length = (decimal n').length := by
          rw [decimal_two (not_lt.mp hone) hn, decimal_two (not_lt.mp hone') hn']
          rfl
        obtain ⟨hdecimal, hrest⟩ := List.append_inj h hlength
        exact .inl ⟨decimal_inj hdecimal, hrest⟩
  · rintro (⟨rfl, rfl⟩ | h | h)
    · rfl
    · exact decimal_append_of_moved h
    · exact (decimal_append_of_moved h).symm

/-- An address with its prefix length, and a text behind it. -/
theorem slash_append_iff {x x' t t' : Str} {n n' : Nat} (hx : '/' ∉ x) (hx' : '/' ∉ x') (hn : n < 100) (hn' : n' < 100) :
    x ++ '/' :: decimal n ++ t = x' ++ '/' :: decimal n' ++ t' ↔
      x = x' ∧ (n = n' ∧ t = t' ∨ DigitMoved n t n' t') := by
  rw [← decimal_append_iff hn hn']
  constructor
  · intro h
    exact Str.append_cons_inj hx hx' (by simpa using h)
  · rintro ⟨rfl, h⟩
    simp [h]

/-! ## The routes -/

/-- What is joined of two lists when the last text of the one runs into the first text of the other. -/
def glue : List Str → List Str → List Str
  | [], bs => bs
  | [a], b :: bs => (a ++ b) :: bs
  | a :: as, bs => a :: glue as bs

theorem joined_cons {a : Str} {as : List Str} (h : as ≠ []) : joined (a :: as) = a ++ '|' :: joined as := by
  obtain ⟨b, bs, rfl⟩ := List.exists_cons_of_ne_nil h
  exact Str.intercalate_cons_cons '|' a b bs

theorem joined_singleton (a : Str) : joined [a] = a := by
  simp [joined, List.intercalate]

theorem glue_ne_nil {as bs : List Str} (h : as ≠ []) : glue as bs ≠ [] := by
  fun_cases glue as bs <;> simp_all

theorem joined_glue (as bs : List Str) : joined as ++ joined bs = joined (glue as bs) := by
  fun_induction glue as bs with
  | case1 bs => rfl
  | case2 a b bs =>
    cases bs with
    | nil => rw [joined_singleton, joined_singleton, joined_singleton]
    | cons b' bs =>
      rw [joined_singleton, joined_cons (List.cons_ne_nil b' bs), joined_cons (List.cons_ne_nil b' bs), List.append_assoc]
  | case3 a as bs hlast ih =>
    by_cases has : as = []
    · subst has
      have hbs : bs = [] := by
        cases bs with
        | nil => rfl
        | cons b bs => exact (hlast b bs rfl rfl).elim
      subst hbs
      exact List.append_nil (joined [a])
    · rw [joined_cons has, joined_cons (glue_ne_nil has), ← ih, List.append_assoc]
      rfl

/-- Only an IPv4 address has a dot; each net has one slash. -/
def IsText4 (t : Str) : Prop := '.' ∈ t ∧ t.count '/' = 1

def IsText6 (t : Str) : Prop := '.' ∉ t ∧ t.count '/' = 1

theorem glue_cons_cons (a a' : Str) (as bs : List Str) : glue (a :: a' :: as) bs = a :: glue (a' :: as) bs := by
  cases bs <;> rfl

theorem glue_singleton_cons (a b : Str) (bs : List Str) : glue [a] (b :: bs) = (a ++ b) :: bs := rfl

theorem exists_dot_glue {a : Str} {as bs : List Str} (ha : IsText4 a) : ∃ x xs, glue (a :: as) bs = x :: xs ∧ '.' ∈ x := by
  cases as with
  | nil =>
    cases bs with
    | nil => exact ⟨a, [], rfl, ha.1⟩
    | cons b bs => exact ⟨a ++ b, bs, rfl, List.mem_append_left b ha.1⟩
  | cons a' as => exact ⟨a, _, glue_cons_cons a a' as bs, ha.1⟩

/-- Two slashes are not one. -/
theorem append_ne_text4 {a b a' : Str} (ha : IsText4 a) (hb : IsText6 b) (ha' : IsText4 a') : a ++ b ≠ a' := by
  rintro rfl
  have hcount := ha'.2
  rw [List.count_append, ha.2, hb.2] at hcount
  cases hcount

theorem singleton_ne_glue {a a' a'' : Str} {as bs bs' : List Str} (ha : IsText4 a) (hbs : ∀ b ∈ bs, IsText6 b)
    (ha' : IsText4 a') : glue [a] bs ≠ glue (a' :: a'' :: as) bs' := by
  rw [glue_cons_cons]
  intro h
  cases bs with
  | nil => exact glue_ne_nil (List.cons_ne_nil a'' as) (List.cons.inj h).2.symm
  | cons b bs => exact append_ne_text4 ha (hbs b List.mem_cons_self) ha' (List.cons.inj h).1

/-- The last text of the first list, run into the first of the second. -/
def Boundary (as bs as' bs' : List Str) : Prop :=
  ∃ front a a' b b' back, as = front ++ [a] ∧ as' = front ++ [a'] ∧ bs = b :: back ∧ bs' = b' :: back ∧ a ++ b = a' ++ b'

theorem Boundary.cons {a : Str} {as bs as' bs' : List Str} (h : Boundary as bs as' bs') :
    Boundary (a :: as) bs (a :: as') bs' := by
  obtain ⟨front, x, x', b, b', back, rfl, rfl, rfl, rfl, hboth⟩ := h
  exact ⟨a :: front, x, x', b, b', back, rfl, rfl, rfl, rfl, hboth⟩

theorem glue_singletons {a a' : Str} {bs bs' : List Str} (ha : IsText4 a) (ha' : IsText4 a')
    (hbs : ∀ b ∈ bs, IsText6 b) (hbs' : ∀ b ∈ bs', IsText6 b) (h : glue [a] bs = glue [a'] bs') :
    [a] = [a'] ∧ bs = bs' ∨ Boundary [a] bs [a'] bs' := by
  cases bs with
  | nil =>
    cases bs' with
    | nil => exact .inl ⟨h, rfl⟩
    | cons b' bs' => exact absurd (List.cons.inj h).1.symm (append_ne_text4 ha' (hbs' b' List.mem_cons_self) ha)
  | cons b bs =>
    cases bs' with
    | nil => exact absurd (List.cons.inj h).1 (append_ne_text4 ha (hbs b List.mem_cons_self) ha')
    | cons b' bs' =>
      rw [glue_singleton_cons, glue_singleton_cons] at h
      obtain ⟨hboth, rfl⟩ := List.cons.inj h
      exact .inr ⟨[], a, a', b, b', bs, rfl, rfl, rfl, rfl, hboth⟩

theorem glue_inj {as bs as' bs' : List Str} (has : ∀ a ∈ as, IsText4 a) (hbs : ∀ b ∈ bs, IsText6 b)
    (has' : ∀ a ∈ as', IsText4 a) (hbs' : ∀ b ∈ bs', IsText6 b) (h : glue as bs = glue as' bs') :
    as = as' ∧ bs = bs' ∨ Boundary as bs as' bs' := by
  have hempty : ∀ {a : Str} {as bs bs' : List Str}, IsText4 a → (∀ b ∈ bs', IsText6 b) → glue (a :: as) bs ≠ bs' := by
    rintro a as bs bs' ha hbs' rfl
    obtain ⟨x, xs, hglue, hdot⟩ := exists_dot_glue ha
    rw [hglue] at hbs'
    exact (hbs' x List.mem_cons_self).1 hdot
  induction as generalizing as' with
  | nil =>
    cases as' with
    | nil => exact .inl ⟨rfl, h⟩
    | cons a' as' => exact absurd h.symm (hempty (has' a' List.mem_cons_self) hbs)
  | cons a as ih =>
    rw [List.forall_mem_cons] at has
    cases as' with
    | nil => exact absurd h (hempty has.1 hbs')
    | cons a' as' =>
      rw [List.forall_mem_cons] at has'
      cases as with
      | nil =>
        cases as' with
        | nil => exact glue_singletons has.1 has'.1 hbs hbs' h
        | cons a'' as' => exact absurd h (singleton_ne_glue has.1 hbs has'.1)
      | cons a₂ as =>
        cases as' with
        | nil => exact absurd h.symm (singleton_ne_glue has'.1 hbs' has.1)
        | cons a₂' as' =>
          rw [glue_cons_cons, glue_cons_cons] at h
          obtain ⟨rfl, hrest⟩ := List.cons.inj h
          rcases ih has.2 has'.2 hrest with ⟨hlists, rfl⟩ | hboundary
          · exact .inl ⟨by rw [hlists], rfl⟩
          · exact .inr hboundary.cons

theorem forall_mem_glue {P : Str → Prop} (happend : ∀ a b, P a → P b → P (a ++ b)) {as bs : List Str} (has : ∀ a ∈ as, P a)
    (hbs : ∀ b ∈ bs, P b) : ∀ x ∈ glue as bs, P x := by
  fun_induction glue as bs with
  | case1 bs => exact hbs
  | case2 a b bs =>
    rw [List.forall_mem_cons] at hbs ⊢
    exact ⟨happend a b (has a List.mem_cons_self) hbs.1, hbs.2⟩
  | case3 a as bs _ ih =>
    rw [List.forall_mem_cons] at has ⊢
    exact ⟨has.1, ih has.2 hbs⟩

theorem glue_concat_cons (front : List Str) (a b : Str) (back : List Str) :
    glue (front ++ [a]) (b :: back) = front ++ (a ++ b) :: back := by
  induction front with
  | nil => rfl
  | cons x front ih =>
    cases front with
    | nil => rfl
    | cons y front => exact congrArg (x :: ·) ih

theorem joined_inj {as bs : List Str} (has : ∀ a ∈ as, a ≠ [] ∧ '|' ∉ a) (hbs : ∀ b ∈ bs, b ≠ [] ∧ '|' ∉ b)
    (h : joined as = joined bs) : as = bs := Str.intercalate_inj has hbs h

/-! ## The nets of the texts -/

theorem dot_mem_getIPv4Address (ip : Nat) : '.' ∈ getIPv4Address ip := by
  simp [getIPv4Address]

theorem dot_notMem_getIPv6Address (ip : Nat) : '.' ∉ getIPv6Address ip := by
  intro h
  have hmem := mem_getIPv6Address h
  revert hmem
  decide

theorem count_slash_netText (net : IpAddress) : (netText net).count '/' = 1 := by
  have haddress := List.count_eq_zero.mpr (slash_notMem_addressText net)
  have hdecimal := List.count_eq_zero.mpr (slash_notMem_decimal net.networkMask)
  simp [netText_eq, haddress, hdecimal]

theorem isText4_netText {net : IpAddress} (h : net.isV4 = true) : IsText4 (netText net) := by
  refine ⟨?_, count_slash_netText net⟩
  rw [netText_eq, addressText, if_pos h]
  exact List.mem_append_left _ (dot_mem_getIPv4Address net.netAddress)

theorem isText6_netText {net : IpAddress} (h : net.isV4 = false) : IsText6 (netText net) := by
  refine ⟨?_, count_slash_netText net⟩
  have haddress := dot_notMem_getIPv6Address net.netAddress
  have hdecimal := dot_notMem_decimal net.networkMask
  simp [netText_eq, addressText, h, haddress, hdecimal]

theorem bar_notMem_netText (net : IpAddress) : '|' ∉ netText net := by
  have haddress : '|' ∉ addressText net := by
    intro h
    have hmem := mem_addressText h
    revert hmem
    decide
  have hdecimal : '|' ∉ decimal net.networkMask := by
    intro h
    have hmem := mem_decimal h
    revert hmem
    decide
  simp [netText_eq, haddress, hdecimal]

/-- IPv4 nets of one flag. -/
def AreNets4 (included : Bool) (nets : List IpAddress) : Prop := ∀ net ∈ nets, IsNet4 net ∧ net.included = included

def AreNets6 (nets6 : List IpAddress) : Prop := ∀ net ∈ nets6, net.isV4 = false

theorem map_netText_inj {included : Bool} {nets nets' : List IpAddress} (h : AreNets4 included nets)
    (h' : AreNets4 included nets') (heq : nets.map netText = nets'.map netText) : nets = nets' := by
  induction nets generalizing nets' with
  | nil => exact (List.map_eq_nil_iff.mp heq.symm).symm
  | cons net nets ih =>
    cases nets' with
    | nil => cases heq
    | cons net' nets' =>
      obtain ⟨⟨hnet, hincluded⟩, hnets⟩ := List.forall_mem_cons.mp h
      obtain ⟨⟨hnet', hincluded'⟩, hnets'⟩ := List.forall_mem_cons.mp h'
      obtain ⟨htext, hrest⟩ := List.cons.inj heq
      obtain rfl := netText_inj_v4 hnet hnet' (hincluded.trans hincluded'.symm) htext
      rw [ih hnets hnets' hrest]

theorem map_netText_eq_iff {nets nets' : List IpAddress} (h : AreNets6 nets) (h' : AreNets6 nets') :
    nets.map netText = nets'.map netText ↔ List.Forall₂ AlikeNets6 nets nets' := by
  induction nets generalizing nets' with
  | nil => cases nets' <;> simp
  | cons net nets ih =>
    cases nets' with
    | nil => simp
    | cons net' nets' =>
      obtain ⟨hnet, hnets⟩ := List.forall_mem_cons.mp h
      obtain ⟨hnet', hnets'⟩ := List.forall_mem_cons.mp h'
      rw [List.map_cons, List.map_cons, List.cons.injEq, netText_eq_iff_v6 hnet hnet', ih hnets hnets', List.forall₂_cons]

/-- The last IPv4 and the first IPv6 route of two lists, put together. -/
theorem netText_append_iff {net net' : IpAddress} {t t' : Str} (h : IsNet4 net) (h' : IsNet4 net')
    (hincluded : net.included = net'.included) :
    netText net ++ t = netText net' ++ t' ↔ net = net' ∧ t = t' ∨
      net.netAddress = net'.netAddress ∧ DigitMoved net.networkMask t net'.networkMask t' := by
  obtain ⟨hv4, hlt, hmask⟩ := h
  obtain ⟨hv4', hlt', hmask'⟩ := h'
  rw [netText_eq, netText_eq,
    slash_append_iff (slash_notMem_addressText net) (slash_notMem_addressText net') (by omega) (by omega)]
  have haddress : addressText net = addressText net' ↔ net.netAddress = net'.netAddress := by
    simp only [addressText, hv4, hv4', if_true]
    exact ⟨getIPv4Address_inj hlt hlt', fun h => by rw [h]⟩
  rw [haddress, and_or_left]
  refine or_congr_left ?_
  constructor
  · rintro ⟨hvalue, hlen, rfl⟩
    refine ⟨?_, rfl⟩
    cases net
    cases net'
    simp_all
  · rintro ⟨rfl, rfl⟩
    exact ⟨rfl, rfl, rfl⟩

/-! ## Which routes have one text -/

def routesText (nets nets6 : List IpAddress) : Str := joined (nets.map netText) ++ joined (nets6.map netText)

theorem routesText_eq (nets nets6 : List IpAddress) :
    routesText nets nets6 = joined (glue (nets.map netText) (nets6.map netText)) := joined_glue _ _

theorem forall_mem_map_netText (nets : List IpAddress) : ∀ t ∈ nets.map netText, t ≠ [] ∧ '|' ∉ t := by
  intro t ht
  obtain ⟨net, -, rfl⟩ := List.mem_map.mp ht
  refine ⟨?_, bar_notMem_netText net⟩
  simp [netText_eq]

theorem glue_eq_of_routesText {nets nets6 nets' nets6' : List IpAddress}
    (h : routesText nets nets6 = routesText nets' nets6') :
    glue (nets.map netText) (nets6.map netText) = glue (nets'.map netText) (nets6'.map netText) := by
  have happend : ∀ a b : Str, (a ≠ [] ∧ '|' ∉ a) → (b ≠ [] ∧ '|' ∉ b) → (a ++ b ≠ [] ∧ '|' ∉ a ++ b) := by
    rintro a b ⟨ha, hbar⟩ ⟨-, hbar'⟩
    simp [ha, hbar, hbar']
  rw [routesText_eq, routesText_eq] at h
  exact joined_inj (forall_mem_glue happend (forall_mem_map_netText nets) (forall_mem_map_netText nets6))
    (forall_mem_glue happend (forall_mem_map_netText nets') (forall_mem_map_netText nets6')) h

theorem routesAlike_of_boundary {included : Bool} {nets nets6 nets' nets6' : List IpAddress} (h : AreNets4 included nets)
    (h6 : AreNets6 nets6) (h' : AreNets4 included nets') (h6' : AreNets6 nets6')
    (hboundary : Boundary (nets.map netText) (nets6.map netText) (nets'.map netText) (nets6'.map netText)) :
    RoutesAlike nets nets6 nets' nets6' := by
  obtain ⟨front, a, a', b, b', back, hnets, hnets', hnets6, hnets6', hboth⟩ := hboundary
  obtain ⟨front, last, rfl, rfl, hlast⟩ := List.map_eq_append_iff.mp hnets
  obtain ⟨front', last', rfl, hfront, hlast'⟩ := List.map_eq_append_iff.mp hnets'
  obtain ⟨net, rfl, rfl⟩ := List.map_eq_singleton_iff.mp hlast
  obtain ⟨net', rfl, rfl⟩ := List.map_eq_singleton_iff.mp hlast'
  obtain ⟨net6, back6, rfl, rfl, rfl⟩ := List.map_eq_cons_iff.mp hnets6
  obtain ⟨net6', back6', rfl, rfl, hback⟩ := List.map_eq_cons_iff.mp hnets6'
  obtain ⟨hfronts, hnet⟩ := List.forall_mem_append.mp h
  obtain ⟨hfronts', hnet'⟩ := List.forall_mem_append.mp h'
  obtain ⟨hv4, hincluded⟩ := List.forall_mem_singleton.mp hnet
  obtain ⟨hv4', hincluded'⟩ := List.forall_mem_singleton.mp hnet'
  obtain rfl := map_netText_inj hfronts' hfronts hfront
  have halike : List.Forall₂ AlikeNets6 back6 back6' :=
    (map_netText_eq_iff (List.forall_mem_cons.mp h6).2 (List.forall_mem_cons.mp h6').2).mp hback.symm
  rcases (netText_append_iff hv4 hv4' (hincluded.trans hincluded'.symm)).mp hboth with ⟨rfl, htext⟩ | ⟨hvalue, hmoved⟩
  · have hfirst := (netText_eq_iff_v6 (h6 net6 List.mem_cons_self) (h6' net6' List.mem_cons_self)).mp htext
    exact .inl ⟨rfl, .cons hfirst halike⟩
  · exact .inr ⟨_, net, net', net6, net6', back6, back6', rfl, rfl, rfl, rfl, hvalue, hmoved, halike⟩

/-- Two pairs of route lists have one text exactly when they are alike. -/
theorem routesText_eq_iff {included : Bool} {nets nets6 nets' nets6' : List IpAddress} (h : AreNets4 included nets)
    (h6 : AreNets6 nets6) (h' : AreNets4 included nets') (h6' : AreNets6 nets6') :
    routesText nets nets6 = routesText nets' nets6' ↔ RoutesAlike nets nets6 nets' nets6' := by
  constructor
  · intro heq
    have htexts4 : ∀ {nets : List IpAddress}, AreNets4 included nets → ∀ t ∈ nets.map netText, IsText4 t := by
      rintro nets hnets t ht
      obtain ⟨net, hnet, rfl⟩ := List.mem_map.mp ht
      exact isText4_netText (hnets net hnet).1.1
    have htexts6 : ∀ {nets : List IpAddress}, AreNets6 nets → ∀ t ∈ nets.map netText, IsText6 t := by
      rintro nets hnets t ht
      obtain ⟨net, hnet, rfl⟩ := List.mem_map.mp ht
      exact isText6_netText (hnets net hnet)
    rcases glue_inj (htexts4 h) (htexts6 h6) (htexts4 h') (htexts6 h6') (glue_eq_of_routesText heq) with
      ⟨hlist, hlist6⟩ | hboundary
    · exact .inl ⟨map_netText_inj h h' hlist, (map_netText_eq_iff h6 h6').mp hlist6⟩
    · exact routesAlike_of_boundary h h6 h' h6' hboundary
  · rintro (⟨rfl, halike⟩ | hmoved)
    · rw [routesText, routesText, (map_netText_eq_iff h6 h6').mpr halike]
    · obtain ⟨front, net, net', net6, net6', back, back', rfl, rfl, rfl, rfl, hvalue, hmoved, halike⟩ := hmoved
      obtain ⟨hv4, hincluded⟩ := List.forall_mem_singleton.mp (List.forall_mem_append.mp h).2
      obtain ⟨hv4', hincluded'⟩ := List.forall_mem_singleton.mp (List.forall_mem_append.mp h').2
      have hboth := (netText_append_iff hv4 hv4' (hincluded.trans hincluded'.symm)).mpr (.inr ⟨hvalue, hmoved⟩)
      have hback := (map_netText_eq_iff (List.forall_mem_cons.mp h6).2 (List.forall_mem_cons.mp h6').2).mpr halike
      simp only [routesText_eq, List.map_append, List.map_cons, List.map_nil, glue_concat_cons, hboth, hback]

end AllInSafe.Tun
