import Mathlib

/-!
# UTF-8

The encoding is the one of the core library. The decoder puts a replacement character in the place of every
maximal part that is not well formed, as the decoders of text processing systems do.
-/

namespace AllInSafe.Library.Utf8

def encode (s : List Char) : List UInt8 := s.flatMap String.utf8EncodeChar

def replacement : Char := '\uFFFD'

/-- The character with this number. -/
def scalar (n : Nat) : Char := if n.isValidChar then Char.ofNat n else replacement

/-- Where a decoder stands: between two characters, or inside one, with the range of the next byte, the number
of bytes after it and the value so far. -/
inductive State
  | start
  | owed (n low high value : Nat)
  deriving DecidableEq, Repr

/-- The first byte of a character. -/
def first (b : Nat) : List Char × State :=
  if b ≤ 0x7F then ([scalar b], .start)
  else if 0xC2 ≤ b ∧ b ≤ 0xDF then ([], .owed 0 0x80 0xBF (b - 0xC0))
  else if 0xE0 ≤ b ∧ b ≤ 0xEF then
    ([], .owed 1 (if b = 0xE0 then 0xA0 else 0x80) (if b = 0xED then 0x9F else 0xBF) (b - 0xE0))
  else if 0xF0 ≤ b ∧ b ≤ 0xF4 then
    ([], .owed 2 (if b = 0xF0 then 0x90 else 0x80) (if b = 0xF4 then 0x8F else 0xBF) (b - 0xF0))
  else ([replacement], .start)

/-- A byte out of the range ends the character and is read again as a first one. -/
def step : State → Nat → List Char × State
  | .start, b => first b
  | .owed n low high value, b =>
      if low ≤ b ∧ b ≤ high then
        match n with
        | 0 => ([scalar (value * 64 + (b - 0x80))], .start)
        | n + 1 => ([], .owed n 0x80 0xBF (value * 64 + (b - 0x80)))
      else (replacement :: (first b).1, (first b).2)

def decodeFrom : State → List UInt8 → List Char
  | .start, [] => []
  | .owed .., [] => [replacement]
  | s, b :: bs => (step s b.toNat).1 ++ decodeFrom (step s b.toNat).2 bs

def decode (bs : List UInt8) : List Char := decodeFrom .start bs

/-- The bytes are the encoding of a text. -/
def Valid (bs : List UInt8) : Prop := ∃ s, bs = encode s

@[simp] theorem encode_nil : encode [] = [] := rfl

@[simp] theorem encode_cons (c : Char) (s : List Char) : encode (c :: s) = String.utf8EncodeChar c ++ encode s := rfl

@[simp] theorem encode_append (s t : List Char) : encode (s ++ t) = encode s ++ encode t := List.flatMap_append

@[simp] theorem decode_nil : decode [] = [] := rfl

theorem decodeFrom_cons (s : State) (b : UInt8) (bs : List UInt8) :
    decodeFrom s (b :: bs) = (step s b.toNat).1 ++ decodeFrom (step s b.toNat).2 bs := by
  cases s <;> rfl

/-! ## Decoding what has been encoded -/

theorem scalar_toNat (c : Char) : scalar c.toNat = c := by
  have hvalid : c.toNat.isValidChar := c.valid
  rw [scalar, if_pos hvalid]
  exact Char.ofNat_toNat c

theorem scalar_of_eq {c : Char} {n : Nat} (h : n = c.toNat) : scalar n = c := by
  rw [h, scalar_toNat]

theorem toNat_valid (c : Char) : c.toNat < 0xD800 ∨ 0xDFFF < c.toNat ∧ c.toNat < 0x110000 := c.valid

/-- The bytes that the encoder writes as numbers. -/
theorem toNat_ofNat {n : Nat} (h : n < 256) : (UInt8.ofNat n).toNat = n := by
  rw [UInt8.toNat_ofNat']
  exact Nat.mod_eq_of_lt h

section

variable {b : UInt8} {bs : List UInt8} {n low high value m : Nat}

theorem decodeFrom_ascii (hb : b.toNat = m) (hm : m ≤ 0x7F) :
    decodeFrom .start (b :: bs) = scalar m :: decodeFrom .start bs := by
  rw [decodeFrom_cons, hb, step, first, if_pos hm]
  rfl

theorem decodeFrom_two (hb : b.toNat = m) (hm : 0xC2 ≤ m ∧ m ≤ 0xDF) :
    decodeFrom .start (b :: bs) = decodeFrom (.owed 0 0x80 0xBF (m - 0xC0)) bs := by
  rw [decodeFrom_cons, hb, step, first, if_neg (by omega), if_pos hm]
  rfl

theorem decodeFrom_three (hb : b.toNat = m) (hm : 0xE0 ≤ m ∧ m ≤ 0xEF) :
    decodeFrom .start (b :: bs) = decodeFrom
      (.owed 1 (if m = 0xE0 then 0xA0 else 0x80) (if m = 0xED then 0x9F else 0xBF) (m - 0xE0)) bs := by
  rw [decodeFrom_cons, hb, step, first, if_neg (by omega), if_neg (by omega), if_pos hm]
  rfl

theorem decodeFrom_four (hb : b.toNat = m) (hm : 0xF0 ≤ m ∧ m ≤ 0xF4) :
    decodeFrom .start (b :: bs) = decodeFrom
      (.owed 2 (if m = 0xF0 then 0x90 else 0x80) (if m = 0xF4 then 0x8F else 0xBF) (m - 0xF0)) bs := by
  rw [decodeFrom_cons, hb, step, first, if_neg (by omega), if_neg (by omega), if_neg (by omega), if_pos hm]
  rfl

theorem decodeFrom_owed (hb : b.toNat = m) (hm : low ≤ m ∧ m ≤ high) :
    decodeFrom (.owed (n + 1) low high value) (b :: bs) =
      decodeFrom (.owed n 0x80 0xBF (value * 64 + (m - 0x80))) bs := by
  rw [decodeFrom_cons, hb, step, if_pos hm]
  rfl

theorem decodeFrom_last (hb : b.toNat = m) (hm : low ≤ m ∧ m ≤ high) :
    decodeFrom (.owed 0 low high value) (b :: bs) = scalar (value * 64 + (m - 0x80)) :: decodeFrom .start bs := by
  rw [decodeFrom_cons, hb, step, if_pos hm]
  rfl

end

theorem decodeFrom_encodeChar (c : Char) (bs : List UInt8) :
    decodeFrom .start (String.utf8EncodeChar c ++ bs) = c :: decodeFrom .start bs := by
  have hc := toNat_valid c
  have hv : c.val.toNat = c.toNat := rfl
  rw [String.utf8EncodeChar]
  simp only [hv]
  split
  case isTrue h =>
      rw [List.cons_append, decodeFrom_ascii (toNat_ofNat (by omega)) h, scalar_toNat]
      rfl
  split
  case isTrue h =>
      rw [List.cons_append, decodeFrom_two (toNat_ofNat (by omega)) (by omega), List.cons_append,
        decodeFrom_last (toNat_ofNat (by omega)) (by omega), scalar_of_eq (c := c) (by omega)]
      rfl
  split
  case isTrue h =>
      rw [List.cons_append, decodeFrom_three (toNat_ofNat (by omega)) (by omega), List.cons_append,
        decodeFrom_owed (toNat_ofNat (by omega)) (by split <;> split <;> omega), List.cons_append,
        decodeFrom_last (toNat_ofNat (by omega)) (by omega), scalar_of_eq (c := c) (by omega)]
      rfl
  case isFalse h =>
      rw [List.cons_append, decodeFrom_four (toNat_ofNat (by omega)) (by omega), List.cons_append,
        decodeFrom_owed (toNat_ofNat (by omega)) (by split <;> split <;> omega), List.cons_append,
        decodeFrom_owed (toNat_ofNat (by omega)) (by omega), List.cons_append,
        decodeFrom_last (toNat_ofNat (by omega)) (by omega), scalar_of_eq (c := c) (by omega)]
      rfl

theorem decode_encode_append (s : List Char) (bs : List UInt8) : decode (encode s ++ bs) = s ++ decode bs := by
  induction s with
  | nil => rfl
  | cons c s ih =>
      rw [encode_cons, List.append_assoc, decode, decodeFrom_encodeChar]
      exact congrArg (c :: ·) ih

theorem decode_encode (s : List Char) : decode (encode s) = s := by
  have h := decode_encode_append s []
  rwa [List.append_nil, decode_nil, List.append_nil] at h

theorem encode_injective {s t : List Char} (h : encode s = encode t) : s = t := by
  rw [← decode_encode s, h, decode_encode]

/-! ## Text cut into pieces

Every first byte of a longer character leaves a trace in what is decoded, wherever the bytes are cut; a piece that
starts inside a character leaves one more.
-/

/-- The first bytes of characters outside ASCII. -/
def leads (bs : List UInt8) : Nat := bs.countP fun b => 0xBF < b.toNat

/-- The characters outside ASCII. -/
def wide (s : List Char) : Nat := s.countP fun c => 0x7F < c.toNat

/-- A character that has begun will leave a trace. -/
def State.debt : State → Nat
  | .start => 0
  | .owed .. => 1

/-- The value can no longer become an ASCII character. -/
def State.Sound : State → Prop
  | .start => True
  | .owed n low high value => 0x80 ≤ low ∧ high ≤ 0xBF ∧ 128 ≤ (value * 64 + (low - 0x80)) * 64 ^ n

@[simp] theorem wide_append (s t : List Char) : wide (s ++ t) = wide s + wide t := List.countP_append

theorem wide_scalar {n : Nat} (h : 128 ≤ n) : wide [scalar n] = 1 := by
  have hwide : 0x7F < (scalar n).toNat := by
    rw [scalar]
    split
    case isTrue hvalid => rw [Char.ofNat, dif_pos hvalid]; exact Nat.lt_of_succ_le h
    case isFalse => decide
  simp [wide, hwide]

theorem wide_replacement (s : List Char) : wide (replacement :: s) = wide s + 1 :=
  List.countP_cons_of_pos (by decide)

/-- A first byte is a character of its own, begins one, or is replaced. -/
theorem first_cases (b : Nat) :
    (b ≤ 0x7F ∧ first b = ([scalar b], .start)) ∨
    (∃ s, first b = ([], s) ∧ s.debt = 1 ∧ s.Sound) ∨
    first b = ([replacement], .start) := by
  unfold first
  split
  case isTrue h => exact .inl ⟨h, rfl⟩
  split
  case isTrue h => exact .inr (.inl ⟨_, rfl, rfl, Nat.le_refl _, Nat.le_refl _, by omega⟩)
  split
  case isTrue h =>
      refine .inr (.inl ⟨_, rfl, rfl, ?_⟩)
      simp only [State.Sound]
      split <;> split <;> omega
  split
  case isTrue h =>
      refine .inr (.inl ⟨_, rfl, rfl, ?_⟩)
      simp only [State.Sound]
      split <;> split <;> omega
  case isFalse => exact .inr (.inr rfl)

/-- What one byte leaves covers what it begins. -/
def Covered (debt b : Nat) (r : List Char × State) : Prop :=
  debt + (if 0xBF < b then 1 else 0) ≤ wide r.1 + r.2.debt ∧ r.2.Sound

theorem first_covered (b : Nat) : Covered 0 b (first b) := by
  rcases first_cases b with ⟨hb, h⟩ | ⟨s, h, hdebt, hsound⟩ | h
  · rw [h]
    exact ⟨by rw [if_neg (by omega)]; exact Nat.zero_le _, trivial⟩
  · rw [h]
    refine ⟨?_, hsound⟩
    simp only [hdebt]
    split <;> omega
  · rw [h]
    refine ⟨?_, trivial⟩
    simp only [wide_replacement]
    split <;> omega

theorem step_owed_of_not {n low high value b : Nat} (h : ¬ (low ≤ b ∧ b ≤ high)) :
    step (.owed n low high value) b = (replacement :: (first b).1, (first b).2) := by
  cases n <;> rw [step, if_neg h]

theorem step_covered {s : State} (b : Nat) (h : s.Sound) : Covered s.debt b (step s b) := by
  cases s with
  | start => exact first_covered b
  | owed n low high value =>
      obtain ⟨hlow, hhigh, hvalue⟩ := h
      by_cases hb : low ≤ b ∧ b ≤ high
      · have hlead : ¬ 0xBF < b := by omega
        cases n with
        | zero =>
            rw [step, if_pos hb]
            refine ⟨?_, trivial⟩
            rw [if_neg hlead, wide_scalar (by omega)]
            exact Nat.le_refl _
        | succ n =>
            rw [step, if_pos hb]
            refine ⟨?_, Nat.le_refl _, Nat.le_refl _, Nat.le_trans hvalue ?_⟩
            · rw [if_neg hlead]
              exact Nat.le_refl _
            · rw [Nat.pow_succ, Nat.mul_comm (64 ^ n), ← Nat.mul_assoc]
              exact Nat.mul_le_mul_right _ (by omega)
      · rw [step_owed_of_not hb]
        obtain ⟨hle, hsound⟩ := first_covered b
        have hdebt : (State.owed n low high value).debt = 1 := rfl
        refine ⟨?_, hsound⟩
        simp only [wide_replacement]
        omega

theorem leads_le {s : State} {bs : List UInt8} (h : s.Sound) : s.debt + leads bs ≤ wide (decodeFrom s bs) := by
  induction bs generalizing s with
  | nil =>
      cases s with
      | start => exact Nat.zero_le _
      | owed => exact Nat.le_refl _
  | cons b bs ih =>
      obtain ⟨hstep, hsound⟩ := step_covered b.toNat h
      have hrest := ih hsound
      rw [decodeFrom_cons, wide_append, leads, List.countP_cons]
      simp only [decide_eq_true_eq]
      rw [leads] at hrest
      omega

/-- A byte inside a character. -/
def Continuation (b : UInt8) : Prop := 0x80 ≤ b.toNat ∧ b.toNat ≤ 0xBF

theorem leads_lt {b : UInt8} {bs : List UInt8} (h : Continuation b) : leads (b :: bs) < wide (decode (b :: bs)) := by
  have hfirst : first b.toNat = ([replacement], .start) := by
    rw [first, if_neg (by have := h.1; omega), if_neg (by have := h.2; omega), if_neg (by have := h.2; omega),
      if_neg (by have := h.2; omega)]
  have hlead : leads (b :: bs) = leads bs := List.countP_cons_of_neg (by have := h.2; simp; omega)
  have hrest : 0 + leads bs ≤ wide (decodeFrom .start bs) := leads_le (s := .start) trivial
  rw [hlead, decode, decodeFrom_cons, step, hfirst, List.singleton_append, wide_replacement]
  show leads bs < wide (decodeFrom .start bs) + 1
  omega

/-- A character is one byte of ASCII, or a first byte and bytes inside. -/
theorem encodeChar_cases (c : Char) :
    (c.toNat ≤ 0x7F ∧ String.utf8EncodeChar c = [UInt8.ofNat c.toNat]) ∨
    (0x7F < c.toNat ∧ ∃ b bs, String.utf8EncodeChar c = b :: bs ∧ 0xBF < b.toNat ∧ ∀ d ∈ bs, Continuation d) := by
  have hc := toNat_valid c
  have hv : c.val.toNat = c.toNat := rfl
  have hinside : ∀ n, Continuation (UInt8.ofNat (n % 64 + 128)) := fun n => by
    rw [Continuation, toNat_ofNat (by omega)]
    omega
  rw [String.utf8EncodeChar]
  simp only [hv]
  split
  case isTrue h => exact .inl ⟨h, rfl⟩
  split
  case isTrue h =>
      refine .inr ⟨by omega, _, _, rfl, by rw [toNat_ofNat] <;> omega, ?_⟩
      simp only [List.forall_mem_cons]
      exact ⟨hinside _, List.forall_mem_nil _⟩
  split
  case isTrue h =>
      refine .inr ⟨by omega, _, _, rfl, by rw [toNat_ofNat] <;> omega, ?_⟩
      simp only [List.forall_mem_cons]
      exact ⟨hinside _, hinside _, List.forall_mem_nil _⟩
  case isFalse h =>
      refine .inr ⟨by omega, _, _, rfl, by rw [toNat_ofNat] <;> omega, ?_⟩
      simp only [List.forall_mem_cons]
      exact ⟨hinside _, hinside _, hinside _, List.forall_mem_nil _⟩

theorem leads_encodeChar (c : Char) : leads (String.utf8EncodeChar c) = wide [c] := by
  rcases encodeChar_cases c with ⟨hc, h⟩ | ⟨hc, b, bs, h, hb, hbs⟩
  · rw [h]
    have hwide : wide [c] = 0 := by simp [wide, hc]
    have hlead : ¬ 0xBF < (UInt8.ofNat c.toNat).toNat := by rw [toNat_ofNat] <;> omega
    rw [hwide, leads, List.countP_cons_of_neg (by simpa using hlead)]
    rfl
  · have hrest : leads bs = 0 := by
      refine List.countP_eq_zero.mpr fun d hd => ?_
      have := (hbs d hd).2
      simp only [decide_eq_true_eq]
      omega
    have hwide : wide [c] = 1 := by simp [wide, hc]
    rw [h, hwide, leads, List.countP_cons_of_pos (by simpa using hb), ← leads, hrest]

theorem leads_encode (s : List Char) : leads (encode s) = wide s := by
  induction s with
  | nil => rfl
  | cons c s ih =>
      rw [encode_cons, leads, List.countP_append, ← leads, ← leads, leads_encodeChar, ih, ← wide_append]
      rfl

/-- A text is only cut inside a character where the second part starts inside one. -/
theorem valid_of_append {s : List Char} {as bs : List UInt8} (h : encode s = as ++ bs)
    (hbs : ∀ b ∈ bs.head?, ¬ Continuation b) : Valid as ∧ Valid bs := by
  induction s generalizing as with
  | nil =>
      obtain ⟨rfl, rfl⟩ := List.append_eq_nil_iff.mp h.symm
      exact ⟨⟨[], rfl⟩, ⟨[], rfl⟩⟩
  | cons c s ih =>
      rw [encode_cons] at h
      rcases List.append_eq_append_iff.mp h with ⟨rest, has, hrest⟩ | ⟨rest, hc, hrest⟩
      · obtain ⟨⟨t, ht⟩, hvalid⟩ := ih hrest
        refine ⟨⟨c :: t, ?_⟩, hvalid⟩
        rw [has, ht, encode_cons]
      · cases as with
        | nil => exact ⟨⟨[], rfl⟩, ⟨c :: s, by rw [hrest, ← List.nil_append rest, ← hc, encode_cons]⟩⟩
        | cons a as =>
            cases rest with
            | nil => exact ⟨⟨[c], by rw [← List.append_nil (a :: as), ← hc]; simp [encode]⟩, ⟨s, hrest⟩⟩
            | cons b rest =>
                refine absurd ?_ (hbs b (by rw [hrest]; rfl))
                rcases encodeChar_cases c with ⟨_, hone⟩ | ⟨_, d, ds, hmany, _, hds⟩
                · rw [hone] at hc
                  simp at hc
                · rw [hmany] at hc
                  injection hc with _ hc
                  exact hds b (by rw [hc]; simp)

section

variable {pieces : List (List UInt8)} {s : List Char}

theorem leads_le_decode (bs : List UInt8) : leads bs ≤ wide (decode bs) := by
  have h : State.start.debt + leads bs ≤ wide (decodeFrom .start bs) := leads_le trivial
  rwa [State.debt, Nat.zero_add] at h

theorem leads_flatten_le (pieces : List (List UInt8)) : leads pieces.flatten ≤ wide (pieces.flatMap decode) := by
  induction pieces with
  | nil => exact Nat.le_refl _
  | cons p ps ih =>
      have hp := leads_le_decode p
      rw [List.flatten_cons, List.flatMap_cons, leads, List.countP_append, wide_append]
      exact Nat.add_le_add hp ih

theorem heads_of_wide (h : wide (pieces.flatMap decode) = leads pieces.flatten) :
    ∀ p ∈ pieces, ∀ b ∈ p.head?, ¬ Continuation b := by
  induction pieces with
  | nil => exact fun p hp => absurd hp List.not_mem_nil
  | cons p ps ih =>
      have hp := leads_le_decode p
      have hps := leads_flatten_le ps
      rw [List.flatten_cons, List.flatMap_cons, leads, List.countP_append, wide_append, ← leads, ← leads] at h
      refine List.forall_mem_cons.mpr ⟨fun b hb hinside => ?_, ih (by omega)⟩
      cases p with
      | nil => cases hb
      | cons d ds =>
          obtain rfl : d = b := Option.some.inj hb
          have hlt : leads (d :: ds) < wide (decode (d :: ds)) := leads_lt hinside
          omega

theorem head_flatten (h : ∀ p ∈ pieces, ∀ b ∈ p.head?, ¬ Continuation b) :
    ∀ b ∈ pieces.flatten.head?, ¬ Continuation b := by
  induction pieces with
  | nil => exact fun b hb => by cases hb
  | cons p ps ih =>
      rw [List.forall_mem_cons] at h
      cases p with
      | nil => exact ih h.2
      | cons d ds => exact h.1

theorem valid_of_heads (hs : pieces.flatten = encode s) (h : ∀ p ∈ pieces, ∀ b ∈ p.head?, ¬ Continuation b) :
    ∀ p ∈ pieces, Valid p := by
  induction pieces generalizing s with
  | nil => exact fun p hp => absurd hp List.not_mem_nil
  | cons p ps ih =>
      rw [List.flatten_cons] at hs
      rw [List.forall_mem_cons] at h
      obtain ⟨hp, t, ht⟩ := valid_of_append hs.symm (head_flatten h.2)
      exact List.forall_mem_cons.mpr ⟨hp, ih ht h.2⟩

theorem flatMap_decode (hs : pieces.flatten = encode s) (h : ∀ p ∈ pieces, Valid p) : pieces.flatMap decode = s := by
  have hpieces : encode (pieces.flatMap decode) = pieces.flatten := by
    clear hs
    induction pieces with
    | nil => rfl
    | cons p ps ih =>
        rw [List.forall_mem_cons] at h
        obtain ⟨⟨t, rfl⟩, hps⟩ := h
        rw [List.flatMap_cons, decode_encode, encode_append, ih hps, List.flatten_cons]
  exact encode_injective (hpieces.trans hs)

/-- The pieces of a text decode to the text, or to more characters outside ASCII than it has. -/
theorem valid_of_wide_le (hs : pieces.flatten = encode s) (h : wide (pieces.flatMap decode) = wide s) :
    ∀ p ∈ pieces, Valid p := by
  refine valid_of_heads hs (heads_of_wide ?_)
  rw [h, hs, leads_encode]

end

/-! ## Text cut at a byte -/

/-- The beginning of a character leaves the decoder inside it. -/
theorem exists_owed {c : Char} {k : Nat} (hpos : 0 < k) (hk : k < (String.utf8EncodeChar c).length) :
    ∃ n low high value, 0x80 ≤ low ∧ ∀ bs,
      decodeFrom .start ((String.utf8EncodeChar c).take k ++ bs) = decodeFrom (.owed n low high value) bs := by
  have hc := toNat_valid c
  have hv : c.val.toNat = c.toNat := rfl
  rw [String.utf8EncodeChar] at hk ⊢
  simp only [hv] at hk ⊢
  split at hk
  case isTrue => exact absurd hk (by simp; omega)
  split at hk
  case isTrue h h' =>
      rw [if_neg h, if_pos h']
      match k, hpos, hk with
      | 1, _, _ => exact ⟨_, _, _, _, Nat.le_refl _, fun bs => decodeFrom_two (toNat_ofNat (by omega)) (by omega)⟩
  split at hk
  case isTrue h h' h'' =>
      have hsecond : ∀ n, (UInt8.ofNat (n % 64 + 128)).toNat = n % 64 + 128 := fun n => toNat_ofNat (by omega)
      rw [if_neg h, if_neg h', if_pos h'']
      match k, hpos, hk with
      | 1, _, _ =>
          refine ⟨_, _, _, _, ?_, fun bs => decodeFrom_three (toNat_ofNat (by omega)) (by omega)⟩
          split <;> omega
      | 2, _, _ =>
          exact ⟨_, _, _, _, Nat.le_refl _, fun bs => Eq.trans
            (decodeFrom_three (toNat_ofNat (by omega)) (by omega))
            (decodeFrom_owed (hsecond _) (by split <;> split <;> omega))⟩
  case isFalse h h' h'' =>
      have hsecond : ∀ n, (UInt8.ofNat (n % 64 + 128)).toNat = n % 64 + 128 := fun n => toNat_ofNat (by omega)
      rw [if_neg h, if_neg h', if_neg h'']
      match k, hpos, hk with
      | 1, _, _ =>
          refine ⟨_, _, _, _, ?_, fun bs => decodeFrom_four (toNat_ofNat (by omega)) (by omega)⟩
          split <;> omega
      | 2, _, _ =>
          exact ⟨_, _, _, _, Nat.le_refl _, fun bs => Eq.trans
            (decodeFrom_four (toNat_ofNat (by omega)) (by omega))
            (decodeFrom_owed (hsecond _) (by split <;> split <;> omega))⟩
      | 3, _, _ =>
          exact ⟨_, _, _, _, Nat.le_refl _, fun bs => Eq.trans
            (decodeFrom_four (toNat_ofNat (by omega)) (by omega)) (Eq.trans
            (decodeFrom_owed (hsecond _) (by split <;> split <;> omega))
            (decodeFrom_owed (hsecond _) (by omega)))⟩

/-- Before ASCII the beginning of a character becomes one replacement character. -/
theorem decode_take_encodeChar {c d : Char} {k : Nat} (hpos : 0 < k) (hk : k < (String.utf8EncodeChar c).length)
    (hd : d.toNat ≤ 0x7F) (s : List Char) :
    decode ((String.utf8EncodeChar c).take k ++ encode (d :: s)) = replacement :: d :: s := by
  obtain ⟨n, low, high, value, hlow, hinside⟩ := exists_owed hpos hk
  have hascii : String.utf8EncodeChar d = [UInt8.ofNat d.toNat] := by
    rcases encodeChar_cases d with ⟨_, h⟩ | ⟨h, _⟩
    · exact h
    · omega
  have hbyte : (UInt8.ofNat d.toNat).toNat = d.toNat := toNat_ofNat (by omega)
  have hrest : decodeFrom .start (UInt8.ofNat d.toNat :: encode s) = d :: s := by
    have h := decode_encode (d :: s)
    rwa [encode_cons, hascii] at h
  rw [decodeFrom_cons, step] at hrest
  rw [decode, hinside, encode_cons, hascii, List.singleton_append, decodeFrom_cons,
    step_owed_of_not (by rw [hbyte]; omega), List.cons_append, hrest]

/-- The first bytes of a text are a text, or a text and the beginning of a character. -/
theorem take_encode_cases (s : List Char) (n : Nat) : ∃ t, (encode s).take n = encode t ∨
    ∃ c k, 0 < k ∧ k < (String.utf8EncodeChar c).length ∧
      (encode s).take n = encode t ++ (String.utf8EncodeChar c).take k := by
  induction s generalizing n with
  | nil => exact ⟨[], .inl (by simp)⟩
  | cons c s ih =>
      rw [encode_cons]
      rcases Nat.lt_or_ge n (String.utf8EncodeChar c).length with hlt | hle
      · rw [List.take_append_of_le_length (Nat.le_of_lt hlt)]
        cases n with
        | zero => exact ⟨[], .inl rfl⟩
        | succ n => exact ⟨[], .inr ⟨c, n + 1, Nat.succ_pos n, hlt, rfl⟩⟩
      · rw [List.take_append, List.take_of_length_le hle]
        obtain ⟨t, ht | ⟨d, k, hpos, hk, ht⟩⟩ := ih (n - (String.utf8EncodeChar c).length)
        · exact ⟨c :: t, .inl (by rw [ht, encode_cons])⟩
        · exact ⟨c :: t, .inr ⟨d, k, hpos, hk, by rw [ht, encode_cons, List.append_assoc]⟩⟩

theorem length_encodeChar_le (c : Char) : (String.utf8EncodeChar c).length ≤ 4 := by
  rw [String.utf8EncodeChar]
  split
  case isTrue => exact (by decide : 1 ≤ 4)
  split
  case isTrue => exact (by decide : 2 ≤ 4)
  split
  case isTrue => exact (by decide : 3 ≤ 4)
  case isFalse => exact Nat.le_refl 4

section

variable {s : List Char} {d : Char} {n : Nat}

/-- What a cut text with a mark decodes to is longer than the cut. -/
theorem le_length_encode_decode_take (h : n ≤ (encode s).length) (hd : d.toNat ≤ 0x7F) (e : List Char) :
    n + (encode (d :: e)).length ≤ (encode (decode ((encode s).take n ++ encode (d :: e)))).length := by
  have hlength : ((encode s).take n).length = n := List.length_take_of_le h
  obtain ⟨t, ht | ⟨c, k, hpos, hk, ht⟩⟩ := take_encode_cases s n
  · rw [ht] at hlength ⊢
    exact Nat.le_of_eq (by rw [decode_encode_append, decode_encode, encode_append, List.length_append, hlength])
  · have hfour := length_encodeChar_le c
    have hthree : (String.utf8EncodeChar replacement).length = 3 := rfl
    rw [ht, List.length_append, List.length_take_of_le (Nat.le_of_lt hk)] at hlength
    rw [ht, List.append_assoc, decode_encode_append, decode_take_encodeChar hpos hk hd, encode_append,
      encode_cons replacement, List.length_append, List.length_append, hthree]
    omega

/-- Cut and marked once more, it decodes to the same. -/
theorem decode_take_encode_decode (h : n ≤ (encode s).length) (hd : d.toNat ≤ 0x7F) (e : List Char) :
    decode ((encode (decode ((encode s).take n ++ encode (d :: e)))).take n ++ encode (d :: e)) =
      decode ((encode s).take n ++ encode (d :: e)) := by
  have hlength : ((encode s).take n).length = n := List.length_take_of_le h
  obtain ⟨t, ht | ⟨c, k, hpos, hk, ht⟩⟩ := take_encode_cases s n
  · rw [ht] at hlength ⊢
    rw [decode_encode_append, decode_encode, encode_append, List.take_left' hlength, decode_encode_append,
      decode_encode]
  · have hfour := length_encodeChar_le c
    have hthree : (String.utf8EncodeChar replacement).length = 3 := rfl
    rw [ht, List.length_append, List.length_take_of_le (Nat.le_of_lt hk)] at hlength
    have hn : n - (encode t).length = k := by omega
    rw [ht, List.append_assoc, decode_encode_append, decode_take_encodeChar hpos hk hd, encode_append, List.take_append,
      List.take_of_length_le (by omega), hn, List.append_assoc, decode_encode_append, encode_cons replacement,
      List.take_append_of_le_length (by omega)]
    rcases Nat.lt_or_ge k 3 with hshort | hwhole
    · rw [decode_take_encodeChar hpos (by rw [hthree]; exact hshort) hd]
    · rw [List.take_of_length_le (by rw [hthree]; exact hwhole), ← encode_cons, decode_encode]

end

/-! ## The bytes as characters -/

/-- The text of the bytes, each of them the character of its number. -/
def octets (s : List Char) : List Char := (encode s).map fun b => Char.ofNat b.toNat

@[simp] theorem octets_nil : octets [] = [] := rfl

@[simp] theorem octets_append (s t : List Char) : octets (s ++ t) = octets s ++ octets t := by simp [octets]

theorem toNat_octet (b : UInt8) : (Char.ofNat b.toNat).toNat = b.toNat := by
  have hvalid : b.toNat.isValidChar := .inl (Nat.lt_trans b.toNat_lt (by decide))
  rw [Char.ofNat, dif_pos hvalid]
  rfl

/-- A character of ASCII is its byte, and the bytes of the others are none of ASCII. -/
theorem octets_char (c : Char) : (c.toNat ≤ 0x7F ∧ octets [c] = [c]) ∨
    (0x7F < c.toNat ∧ ∀ d ∈ octets [c], 0x7F < d.toNat) := by
  rcases encodeChar_cases c with ⟨hc, h⟩ | ⟨hc, b, bs, h, hb, hbs⟩
  · refine .inl ⟨hc, ?_⟩
    simp [octets, h, Nat.mod_eq_of_lt (show c.toNat < 256 by omega)]
  · refine .inr ⟨hc, fun d hd => ?_⟩
    simp only [octets, encode_cons, encode_nil, List.append_nil, h, List.map_cons, List.mem_cons, List.mem_map] at hd
    rcases hd with rfl | ⟨e, he, rfl⟩
    · rw [toNat_octet]; omega
    · have := (hbs e he).1
      rw [toNat_octet]; omega

theorem octets_cons (c : Char) (s : List Char) : octets (c :: s) = octets [c] ++ octets s := octets_append [c] s

@[simp] theorem octets_cons_of_le {c : Char} (h : c.toNat ≤ 0x7F) (s : List Char) : octets (c :: s) = c :: octets s := by
  rcases octets_char c with ⟨-, hc⟩ | ⟨hc, -⟩
  · rw [octets_cons, hc]; rfl
  · omega

theorem octets_of_le {s : List Char} (h : ∀ c ∈ s, c.toNat ≤ 0x7F) : octets s = s := by
  induction s with
  | nil => rfl
  | cons c s ih =>
      rw [List.forall_mem_cons] at h
      rw [octets_cons_of_le h.1, ih h.2]

theorem mem_octets {s : List Char} {c : Char} (h : c ∈ octets s) : c ∈ s ∨ 0x7F < c.toNat := by
  induction s with
  | nil => cases h
  | cons d s ih =>
      rw [octets_cons] at h
      rcases List.mem_append.mp h with h | h
      · rcases octets_char d with ⟨-, hd⟩ | ⟨-, hd⟩
        · rw [hd] at h
          exact .inl (List.mem_cons.mpr (.inl (List.mem_singleton.mp h)))
        · exact .inr (hd c h)
      · exact (ih h).imp_left (List.mem_cons_of_mem d)

theorem octets_injective {s t : List Char} (h : octets s = octets t) : s = t := by
  refine encode_injective (List.map_injective_iff.mpr (fun a b hab => ?_) h)
  rw [← UInt8.toNat_inj, ← toNat_octet a, hab, toNat_octet]

/-- A change of single characters of ASCII is made on the bytes as on the text. -/
theorem octets_flatMap {f : Char → List Char} (hascii : ∀ c, c.toNat ≤ 0x7F → ∀ d ∈ f c, d.toNat ≤ 0x7F)
    (hwide : ∀ c, 0x7F < c.toNat → f c = [c]) (s : List Char) : octets (s.flatMap f) = (octets s).flatMap f := by
  have hself : ∀ t : List Char, (∀ d ∈ t, 0x7F < d.toNat) → t.flatMap f = t := by
    intro t ht
    induction t with
    | nil => rfl
    | cons d t ih =>
        rw [List.forall_mem_cons] at ht
        rw [List.flatMap_cons, hwide d ht.1, ih ht.2]
        rfl
  induction s with
  | nil => rfl
  | cons c s ih =>
      rw [List.flatMap_cons, octets_append, ih, octets_cons c s, List.flatMap_append]
      rcases octets_char c with ⟨hc, hone⟩ | ⟨hc, hall⟩
      · rw [hone, octets_of_le (hascii c hc), List.flatMap_singleton]
      · rw [hwide c hc, hself _ hall]

/-- Characters of ASCII are dropped from the bytes as from the text. -/
theorem octets_filter {p : Char → Bool} (hwide : ∀ c, 0x7F < c.toNat → p c = true) (s : List Char) :
    octets (s.filter p) = (octets s).filter p := by
  induction s with
  | nil => rfl
  | cons c s ih =>
      rw [octets_cons c s, List.filter_append, ← ih]
      rcases octets_char c with ⟨-, hone⟩ | ⟨hc, hall⟩
      · rw [hone]
        cases hp : p c with
        | true => rw [List.filter_cons_of_pos hp, octets_cons, hone, List.filter_cons_of_pos hp]; rfl
        | false => rw [List.filter_cons_of_neg (by simp [hp]), List.filter_cons_of_neg (by simp [hp])]; rfl
      · rw [List.filter_cons_of_pos (hwide c hc), octets_cons, List.filter_eq_self.mpr fun d hd => hwide d (hall d hd)]

end AllInSafe.Library.Utf8
