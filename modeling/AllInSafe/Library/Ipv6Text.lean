import AllInSafe.Library.Parts

/-!
# The text of an IPv6 address

The three forms of RFC 4291: eight groups of at most four hexadecimal digits, a run of zeros written as `::`, and the
last two groups written as an IPv4 address.
-/

namespace AllInSafe.Library.Ipv6Text

/-! ## Reading -/

def hexValue (c : Char) : Option Nat :=
  if '0' ≤ c && c ≤ '9' then some (c.toNat - '0'.toNat)
  else if 'a' ≤ c && c ≤ 'f' then some (c.toNat - 'a'.toNat + 10)
  else if 'A' ≤ c && c ≤ 'F' then some (c.toNat - 'A'.toNat + 10)
  else none

/-- The number that the digits stand for. -/
def number (base : Nat) (s : Str) : Option Nat :=
  s.foldl (fun n c => n.bind fun n => ((hexValue c).filter (· < base)).map (base * n + ·)) (some 0)

def group (s : Str) : Option Nat :=
  if s ≠ [] && s.length ≤ 4 then number 16 s else none

def octet (s : Str) : Option Nat :=
  if s ≠ [] && s.length ≤ 3 then (number 10 s).filter (· < 256) else none

/-- The two groups of an IPv4 address. -/
def dotted (s : Str) : Option (List Nat) :=
  match (Str.parts (· = '.') s).mapM octet with
  | some [a, b, c, d] => some [256 * a + b, 256 * c + d]
  | _ => none

/-- The groups between the colons; only the end of the text may be an IPv4 address. -/
def groups (atEnd : Bool) : List Str → Option (List Nat)
  | [] => some []
  | [s] => if atEnd && s.contains '.' then dotted s else (group s).map ([·])
  | s :: t :: rest => (group s).bind fun g => (groups atEnd (t :: rest)).map (g :: ·)

/-- One side of a `::`. -/
def side (atEnd : Bool) (s : Str) : Option (List Nat) :=
  if s = [] then some [] else groups atEnd (Str.parts (· = ':') s)

/-- What stands before the first `::` and behind it. -/
def cut : Str → Option (Str × Str)
  | ':' :: ':' :: back => some ([], back)
  | c :: s => (cut s).map fun p => (c :: p.1, p.2)
  | [] => none

def value (gs : List Nat) : Nat := Nat.ofDigits 0x10000 gs.reverse

/-- The address that a text denotes, `none` where it is no literal. -/
def read (text : Str) : Option Nat :=
  match cut text with
  | none => (groups true (Str.parts (· = ':') text)).bind fun gs => if gs.length = 8 then some (value gs) else none
  | some (front, back) =>
      (side false front).bind fun f => (side true back).bind fun b =>
        if f.length + b.length ≤ 7 then some (value (f ++ List.replicate (8 - f.length - b.length) 0 ++ b)) else none

example : read "2001:DB8::0008:800:200C:417A" = some 0x20010db80000000000080800200c417a := by decide
example : read "::FFFF:129.144.52.38" = some 0xffff81903426 := by decide
example : read "1" = none := by decide

/-! ## Groups -/

theorem hexValue_digitChar {d : Nat} (h : d < 16) : hexValue d.digitChar = some d := by
  have hall : ∀ d < 16, hexValue d.digitChar = some d := by decide
  exact hall d h

theorem number_append (base : Nat) (s : Str) (c : Char) : number base (s ++ [c]) =
    (number base s).bind fun n => ((hexValue c).filter (· < base)).map (base * n + ·) := by
  simp [number]

theorem number_toDigits (n : Nat) : number 16 (Nat.toDigits 16 n) = some n := by
  induction n using Nat.strongRecOn with
  | ind n ih =>
      by_cases h : n < 16
      · simp [Nat.toDigits_of_lt_base h, number, hexValue_digitChar h, h]
      · have hmod : n % 16 < 16 := Nat.mod_lt n (by decide)
        rw [Nat.toDigits_of_base_le (by decide) (not_lt.mp h), number_append, ih (n / 16) (by omega),
          hexValue_digitChar hmod]
        simp [hmod]
        omega

theorem length_toDigits_le {n : Nat} (h : n < 0x10000) : (Nat.toDigits 16 n).length ≤ 4 :=
  (Nat.length_toDigits_le_iff (by decide) (by decide)).mpr h

theorem group_toDigits {g : Nat} (h : g < 0x10000) : group (Nat.toDigits 16 g) = some g := by
  rw [group, if_pos (by simp [Nat.toDigits_ne_nil, length_toDigits_le h]), number_toDigits]

/-- Groups that are printed without a dot are read back. -/
theorem groups_map {print : Nat → Str} {gs : List Nat} (hgroup : ∀ g ∈ gs, group (print g) = some g)
    (hdot : ∀ g ∈ gs, '.' ∉ print g) (atEnd : Bool) : groups atEnd (gs.map print) = some gs := by
  induction gs with
  | nil => rfl
  | cons g gs ih =>
      rw [List.forall_mem_cons] at hgroup hdot
      cases gs with
      | nil => simp [groups, hgroup.1, hdot.1]
      | cons g' gs =>
          have hrest := ih hgroup.2 hdot.2
          simp only [List.map_cons] at hrest ⊢
          simp [groups, hgroup.1, hrest]

/-! ## The first double colon -/

theorem cut_cons {c : Char} (h : c ≠ ':') (s : Str) : cut (c :: s) = (cut s).map fun p => (c :: p.1, p.2) := by
  rw [cut]
  exact fun back heq _ => h heq

theorem cut_append {w : Str} (h : ':' ∉ w) (s : Str) : cut (w ++ s) = (cut s).map fun p => (w ++ p.1, p.2) := by
  induction w with
  | nil => simp
  | cons c w ih =>
      rw [List.mem_cons, not_or] at h
      rw [List.cons_append, cut_cons (Ne.symm h.1), ih h.2, Option.map_map]
      rfl

theorem cut_colon {c : Char} (h : c ≠ ':') (s : Str) :
    cut (':' :: c :: s) = (cut (c :: s)).map fun p => (':' :: p.1, p.2) := by
  rw [cut]
  exact fun back _ heq => h (List.cons.inj heq).1

theorem cut_intercalate {words : List Str} (h : ∀ w ∈ words, w ≠ [] ∧ ':' ∉ w) (s : Str) :
    cut (List.intercalate [':'] words ++ s) = (cut s).map fun p => (List.intercalate [':'] words ++ p.1, p.2) := by
  induction words with
  | nil => simp [List.intercalate]
  | cons w words ih =>
      rw [List.forall_mem_cons] at h
      cases words with
      | nil => simpa [List.intercalate] using cut_append h.1.2 s
      | cons w' words =>
          obtain ⟨c, cs, hw'⟩ := List.exists_cons_of_ne_nil (h.2 w' List.mem_cons_self).1
          have hc : c ≠ ':' := fun hc => (h.2 w' List.mem_cons_self).2 (by simp [hw', hc])
          obtain ⟨cs', htext⟩ : ∃ cs', List.intercalate [':'] (w' :: words) = c :: cs' := by
            cases words <;> simp [List.intercalate, hw']
          have hrest := ih h.2
          rw [htext] at hrest
          rw [Str.intercalate_cons_cons, List.append_assoc, cut_append h.1.2, htext, List.cons_append,
            List.cons_append, cut_colon hc, ← List.cons_append, hrest, Option.map_map, Option.map_map]
          congr 1
          funext p
          simp

/-! ## Groups that are joined by colons -/

section

variable {print : Nat → Str} {gs : List Nat} (hgroup : ∀ g ∈ gs, group (print g) = some g)
  (hchars : ∀ g ∈ gs, ':' ∉ print g ∧ '.' ∉ print g)

include hgroup in
theorem words_ne_nil : ∀ w ∈ gs.map print, w ≠ [] := by
  intro w hw hnil
  obtain ⟨g, hg, rfl⟩ := List.mem_map.mp hw
  have := hgroup g hg
  simp [hnil, group] at this

include hgroup hchars

theorem words_spec : ∀ w ∈ gs.map print, w ≠ [] ∧ ':' ∉ w := by
  intro w hw
  refine ⟨words_ne_nil hgroup w hw, ?_⟩
  obtain ⟨g, hg, rfl⟩ := List.mem_map.mp hw
  exact (hchars g hg).1

theorem groups_parts (hne : gs ≠ []) (atEnd : Bool) :
    groups atEnd (Str.parts (· = ':') (List.intercalate [':'] (gs.map print))) = some gs := by
  obtain ⟨w, ws, hws⟩ := List.exists_cons_of_ne_nil (List.map_eq_nil_iff.not.mpr hne : gs.map print ≠ [])
  have hcolon : ∀ v ∈ w :: ws, ∀ d ∈ v, decide (d = ':') = false := by
    rw [← hws]
    intro v hv d hd
    have hv := (words_spec hgroup hchars v hv).2
    exact decide_eq_false fun heq => hv (heq ▸ hd)
  rw [hws, Str.parts_intercalate (by simp) hcolon, ← hws]
  exact groups_map hgroup (fun g hg => (hchars g hg).2) atEnd

/-- Without a run of zeros there must be eight groups. -/
theorem read_joined (hne : gs ≠ []) :
    read (List.intercalate [':'] (gs.map print)) = if gs.length = 8 then some (value gs) else none := by
  have hcut := cut_intercalate (words_spec hgroup hchars) []
  rw [List.append_nil] at hcut
  rw [read, hcut, groups_parts hgroup hchars hne]
  rfl

/-- A run of zeros at the end fills the address. -/
theorem read_joined_zeros (hne : gs ≠ []) : read (List.intercalate [':'] (gs.map print) ++ [':', ':']) =
    if gs.length ≤ 7 then some (value (gs ++ List.replicate (8 - gs.length) 0)) else none := by
  have hcut := cut_intercalate (words_spec hgroup hchars) [':', ':']
  have hfront : List.intercalate [':'] (gs.map print) ≠ [] := by
    obtain ⟨g, gs', rfl⟩ := List.exists_cons_of_ne_nil hne
    have hg := words_ne_nil hgroup _ List.mem_cons_self
    cases gs' <;> simp [List.intercalate, hg]
  have hside : side false (List.intercalate [':'] (gs.map print)) = some gs := by
    rw [side, if_neg hfront]
    exact groups_parts hgroup hchars hne false
  rw [read, hcut]
  simp only [cut, Option.map_some, List.append_nil, hside, Option.bind_some]
  simp [side]

end

end AllInSafe.Library.Ipv6Text
