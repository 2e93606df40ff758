import AllInSafe.Log.LogItem
import Mathlib.Tactic.Common

/-!
# What the encoder writes

The bytes of an item as a function of the position at which they begin, since a long string is cut to what the
rest of the buffer leaves.
-/

namespace AllInSafe.Log
open AllInSafe.Library Buffer

/-! ## The bytes -/

/-- The limit for a string whose length stands at `p`. -/
def limit (p : Nat) : Nat := min 8192 (16256 - p)

def shortened (p : Nat) (str : Str) : List UInt8 :=
  if limit p < (Utf8.encode str).length then (Utf8.encode str).take (limit p) ++ elipse else Utf8.encode str

def wireString (p : Nat) (str : Str) : List UInt8 :=
  BigEndian.bytes 4 (shortened p str).length ++ shortened p str

def wireArg (p : Nat) : Arg → List UInt8
  | .string str | .other str => BigEndian.bytes 2 's'.toNat ++ wireString (p + 2) str
  | .int i => BigEndian.bytes 2 'i'.toNat ++ BigEndian.bytes 4 i.toNat
  | .float bits => BigEndian.bytes 2 'f'.toNat ++ BigEndian.bytes 4 bits.toNat
  | .double bits => BigEndian.bytes 2 'd'.toNat ++ BigEndian.bytes 8 bits.toNat
  | .long l => BigEndian.bytes 2 'l'.toNat ++ BigEndian.bytes 8 l.toNat
  | .null => BigEndian.bytes 2 '0'.toNat

def wireArgs (p : Nat) : List Arg → List UInt8
  | [] => []
  | a :: as => wireArg p a ++ wireArgs (p + (wireArg p a).length) as

/-- An argument that is written as a string. -/
def Arg.isText : Arg → Bool
  | .string _ | .other _ => true
  | _ => false

/-! ## Putting -/

section

variable {bb : Buffer} {bs : List UInt8}

theorem put_eq (h : bb.length ≤ capacity) (bs : List UInt8) :
    put bs bb = if bb.length + bs.length ≤ capacity then .ok (bb ++ bs) else .error .bufferOverflow := by
  have hiff : bs.length ≤ remaining bb ↔ bb.length + bs.length ≤ capacity := by
    rw [remaining]
    omega
  rw [put]
  simp only [hiff]

theorem put_ok (h : bb.length + bs.length ≤ capacity) : put bs bb = .ok (bb ++ bs) := by
  rw [put_eq (by omega), if_pos h]

theorem put_overflow (hbb : bb.length ≤ capacity) (h : capacity < bb.length + bs.length) :
    put bs bb = .error .bufferOverflow := by
  rw [put_eq hbb, if_neg (by omega)]

/-- Two puts are one. -/
theorem put_put (h : bb.length ≤ capacity) (bs cs : List UInt8) :
    (put bs bb >>= put cs) = put (bs ++ cs) bb := by
  by_cases hbs : bb.length + bs.length ≤ capacity
  · rw [put_ok hbs]
    show put cs (bb ++ bs) = _
    have hlen : (bb ++ bs).length ≤ capacity := by simpa using hbs
    rw [put_eq hlen, put_eq h, List.length_append, List.length_append, Nat.add_assoc, List.append_assoc]
  · rw [put_overflow h (by omega), put_overflow h (by simp; omega)]
    rfl

theorem maxStringLength_eq (h : bb.length ≤ capacity) : maxStringLength bb = min 8192 (16256 - (bb.length : Int)) := by
  rw [capacity] at h
  rw [maxStringLength, remaining, capacity]
  omega

theorem maxStringLength_of_le (h : bb.length ≤ 16256) : maxStringLength bb = limit bb.length := by
  rw [maxStringLength_eq (Nat.le_trans h (by decide)), limit]
  omega

theorem length_elipse : elipse.length = 13 := by decide

end

/-! ## Strings -/

theorem length_shortened_le (p : Nat) (str : Str) : (shortened p str).length ≤ limit p + 13 := by
  rw [shortened]
  split
  case isTrue => rw [List.length_append, length_elipse]; exact Nat.add_le_add_right (List.length_take_le _ _) 13
  case isFalse h => omega

theorem length_wireString (p : Nat) (str : Str) : (wireString p str).length = 4 + (shortened p str).length := by
  simp [wireString]

section

variable {bb : Buffer} {str : Str}

theorem shortened_eq_of_le (h : (Utf8.encode str).length ≤ limit bb.length) :
    shortened bb.length str = Utf8.encode str := by
  rw [shortened, if_neg (by omega)]

/-- A string fits where its limit is not negative. -/
theorem marschalString_ok (h : bb.length ≤ 16256) :
    marschalString str bb = .ok (bb ++ wireString bb.length str) := by
  have hcapacity : bb.length ≤ capacity := Nat.le_trans h (by decide)
  have hmax := maxStringLength_of_le h
  have hlimit : limit bb.length ≤ 16256 - bb.length := Nat.min_le_right _ _
  rw [marschalString]
  simp only [hmax]
  by_cases hlong : limit bb.length < (Utf8.encode str).length
  · have hput : put (BigEndian.bytes 4 (limit bb.length + 13)) bb =
        .ok (bb ++ BigEndian.bytes 4 (limit bb.length + 13)) := put_ok (by simp [capacity]; omega)
    have hint : (BitVec.ofInt 32 ((limit bb.length : Int) + elipse.length)).toNat = limit bb.length + 13 := by
      rw [length_elipse, BitVec.toNat_ofInt]
      omega
    rw [if_pos (by omega), putInt, hint, hput]
    show (do put elipse (← putFirst (Utf8.encode str) (limit bb.length) (bb ++ _))) = _
    have hlength : ((Utf8.encode str).take (limit bb.length) ++ elipse).length = limit bb.length + 13 := by
      rw [List.length_append, List.length_take_of_le (by omega), length_elipse]
    rw [putFirst, if_neg (by omega), put_put (by simp [capacity]; omega), Int.toNat_natCast, wireString, shortened,
      if_pos hlong, hlength, put_ok (by simp [capacity, hlength]; omega), List.append_assoc]
  · have hput : put (BigEndian.bytes 4 (Utf8.encode str).length) bb =
        .ok (bb ++ BigEndian.bytes 4 (Utf8.encode str).length) := put_ok (by simp [capacity]; omega)
    have hint : (BitVec.ofNat 32 (Utf8.encode str).length).toNat = (Utf8.encode str).length := by
      rw [BitVec.toNat_ofNat]
      omega
    rw [if_neg (by omega), putInt, hint, put_put hcapacity, wireString, shortened_eq_of_le (by omega)]
    exact put_ok (by simp [capacity]; omega)

/-- Near the end of the buffer the limit is negative, which the buffer refuses as a length. -/
theorem marschalString_negative (h : 16256 < bb.length) (hbb : bb.length ≤ 16380) :
    marschalString str bb = .error .indexOutOfBounds := by
  have hcapacity : bb.length ≤ capacity := Nat.le_trans hbb (by decide)
  have hmax := maxStringLength_eq hcapacity
  rw [marschalString, if_pos (by omega), putInt, put_ok (by simp [capacity]; omega)]
  show (do put elipse (← putFirst (Utf8.encode str) (maxStringLength bb) (bb ++ _))) = _
  rw [putFirst, if_pos (by omega)]
  rfl

theorem marschalString_overflow (h : 16380 < bb.length) (hbb : bb.length ≤ capacity) :
    marschalString str bb = .error .bufferOverflow := by
  have hmax := maxStringLength_eq hbb
  rw [marschalString, if_pos (by omega), putInt, put_overflow hbb (by simp [capacity]; omega)]
  rfl

end

/-! ## Arguments -/

/-- A string begins where its limit is negative, yet its length still fits. -/
def Clashes (p : Nat) (a : Arg) : Prop := a.isText ∧ 16256 < p + 2 ∧ p + 2 ≤ 16380

instance (p : Nat) (a : Arg) : Decidable (Clashes p a) := inferInstanceAs (Decidable (_ ∧ _))

section

variable {bb : Buffer}

theorem length_putText (p : Nat) (str : Str) :
    (BigEndian.bytes 2 's'.toNat ++ wireString p str).length = 6 + (shortened p str).length := by
  rw [List.length_append, length_wireString, BigEndian.length_bytes]
  omega

theorem length_wireArg_text {p : Nat} {a : Arg} (h : a.isText) : 6 ≤ (wireArg p a).length := by
  cases a with
  | string str | other str => rw [wireArg, length_putText]; exact Nat.le_add_right 6 _
  | int | float | double | long | null => exact absurd h Bool.false_ne_true

theorem putText_eq (h : bb.length ≤ capacity) (str : Str) :
    (do marschalString str (← putChar 's' bb)) =
      if 16256 < bb.length + 2 ∧ bb.length + 2 ≤ 16380 then .error .indexOutOfBounds
      else put (BigEndian.bytes 2 's'.toNat ++ wireString (bb.length + 2) str) bb := by
  have hlength := length_putText (bb.length + 2) str
  by_cases hchar : bb.length + 2 ≤ capacity
  · have hput : putChar 's' bb = .ok (bb ++ BigEndian.bytes 2 's'.toNat) := put_ok hchar
    have hnext : (bb ++ BigEndian.bytes 2 's'.toNat).length = bb.length + 2 := by simp
    rw [hput]
    show marschalString str (bb ++ BigEndian.bytes 2 's'.toNat) = _
    rcases Nat.lt_or_ge 16256 (bb.length + 2) with hnegative | hle
    · rcases Nat.lt_or_ge 16380 (bb.length + 2) with hend | hint
      · rw [marschalString_overflow (by omega) (by omega), if_neg (by omega), put_overflow h]
        rw [hlength, capacity]
        omega
      · rw [marschalString_negative (by omega) (by omega), if_pos ⟨hnegative, hint⟩]
    · have hshort := length_shortened_le (bb.length + 2) str
      have hlimit : limit (bb.length + 2) ≤ 16256 - (bb.length + 2) := Nat.min_le_right _ _
      rw [marschalString_ok (by omega), if_neg (by omega), put_ok, hnext, List.append_assoc]
      rw [hlength, capacity]
      omega
  · have hput : putChar 's' bb = .error .bufferOverflow := put_overflow h (by simp; omega)
    rw [capacity] at hchar
    rw [hput, if_neg (by omega), put_overflow h]
    · rfl
    · rw [hlength, capacity]
      omega

/-- An argument is written whole, unless it is a string that begins too near to the end. -/
theorem putArg_eq (h : bb.length ≤ capacity) (a : Arg) :
    putArg bb a = if Clashes bb.length a then .error .indexOutOfBounds else put (wireArg bb.length a) bb := by
  have htext : ∀ str, (do marschalString str (← putChar 's' bb)) =
      if Clashes bb.length (.string str) then .error .indexOutOfBounds
      else put (wireArg bb.length (.string str)) bb := fun str => by
    rw [putText_eq h]
    simp [Clashes, Arg.isText, wireArg]
  cases a with
  | string str => exact htext str
  | other str => exact htext str
  | null => rw [if_neg (fun hc => absurd hc.1 (by decide))]; rfl
  | int i | float i | double i | long i =>
      rw [if_neg (fun hc => absurd hc.1 (by simp [Arg.isText]))]
      exact put_put h _ _

end

end AllInSafe.Log
