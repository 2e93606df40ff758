import AllInSafe.Log.Lemmas.Encode

/-!
# What the constructor reads back
-/

namespace AllInSafe.Log
open AllInSafe.Library Buffer

/-! ## Items as they come back -/

def readArg (p : Nat) : Arg → Arg
  | .string str | .other str => .string (Utf8.decode (shortened (p + 2) str))
  | a => a

def readArgs (p : Nat) : List Arg → List Arg
  | [] => []
  | a :: as => readArg p a :: readArgs (p + (wireArg p a).length) as

def readMessage : Option Str → Option Str
  | none | some [] => none
  | some message => some (Utf8.decode (shortened 21 message))

/-- The item with its strings cut as the buffer demands; an empty message or array is `null`. -/
def LogItem.restored (li : LogItem) : LogItem :=
  { li with
    mMessage := readMessage li.mMessage
    mArgs := if li.args = [] then none else some (readArgs li.argsStart li.args) }

/-! ## Getting -/

section

variable {bs rest : List UInt8} {n : Nat}

theorem getBytes_append (h : bs.length = n) : getBytes n (bs ++ rest) = .ok (bs, rest) := by
  subst h
  rw [getBytes, if_pos (by simp), List.take_left, List.drop_left]

theorem getNumber_bytes (n : Nat) {v : Nat} (h : v < 256 ^ n) :
    getNumber n (BigEndian.bytes n v ++ rest) = .ok (v, rest) := by
  rw [getNumber, getBytes_append (BigEndian.length_bytes n v)]
  exact congrArg (fun v => Except.ok (v, rest)) (BigEndian.value_bytes_of_lt h)

theorem getInt_bytes {v : Nat} (h : v < 2 ^ 32) :
    getInt (BigEndian.bytes 4 v ++ rest) = .ok (BitVec.ofNat 32 v, rest) := by
  rw [getInt, getNumber_bytes 4 h]
  rfl

theorem getInt_toNat (i : BitVec 32) : getInt (BigEndian.bytes 4 i.toNat ++ rest) = .ok (i, rest) := by
  rw [getInt_bytes i.isLt, BitVec.ofNat_toNat, BitVec.setWidth_eq]

theorem getLong_toNat (l : BitVec 64) : getLong (BigEndian.bytes 8 l.toNat ++ rest) = .ok (l, rest) := by
  rw [getLong, getNumber_bytes 8 l.isLt]
  show Except.ok (BitVec.ofNat 64 l.toNat, rest) = _
  rw [BitVec.ofNat_toNat, BitVec.setWidth_eq]

theorem toInt_ofNat {n : Nat} (h : n < 2 ^ 31) : (BitVec.ofNat 32 n).toInt = n := by
  have hnat : (BitVec.ofNat 32 n).toNat = n := by
    rw [BitVec.toNat_ofNat]
    exact Nat.mod_eq_of_lt (by omega)
  rw [BitVec.toInt_eq_toNat_of_lt (by omega), hnat]

theorem getArray_append (h : bs.length = n) (hn : n < 2 ^ 31) :
    getArray (BitVec.ofNat 32 n) (bs ++ rest) = .ok (bs, rest) := by
  have hnat : (BitVec.ofNat 32 n).toNat = n := by
    rw [BitVec.toNat_ofNat]
    exact Nat.mod_eq_of_lt (by omega)
  rw [getArray, toInt_ofNat hn, if_neg (by omega), hnat, getBytes_append h]

end

/-! ## Strings and arguments -/

section

variable {rest : List UInt8}

theorem length_shortened_lt (p : Nat) (str : Str) : (shortened p str).length < 2 ^ 31 := by
  have h := length_shortened_le p str
  have hlimit : limit p ≤ 8192 := Nat.min_le_left _ _
  omega

theorem unmarschalString_wire (p : Nat) (str : Str) :
    unmarschalString (wireString p str ++ rest) = .ok (Utf8.decode (shortened p str), rest) := by
  have hlength := length_shortened_lt p str
  rw [unmarschalString, wireString, List.append_assoc, getInt_bytes (by omega)]
  show (getArray (BitVec.ofNat 32 (shortened p str).length) (shortened p str ++ rest)).map _ = _
  rw [getArray_append rfl hlength]
  rfl

theorem getArg_char {c : Char} (h : c.toNat < 256 ^ 2) :
    getArg (BigEndian.bytes 2 c.toNat ++ rest) = getArgOf c.toNat rest := by
  rw [getArg, getChar, getNumber_bytes 2 h]
  rfl

theorem getArg_wire (p : Nat) (a : Arg) : getArg (wireArg p a ++ rest) = .ok (readArg p a, rest) := by
  cases a with
  | string str | other str =>
      rw [wireArg, List.append_assoc, getArg_char (by decide), getArgOf, if_pos rfl, unmarschalString_wire]
      rfl
  | int i =>
      rw [wireArg, List.append_assoc, getArg_char (by decide), getArgOf, if_neg (by decide), if_pos rfl, getInt_toNat]
      rfl
  | double bits =>
      rw [wireArg, List.append_assoc, getArg_char (by decide), getArgOf, if_neg (by decide), if_neg (by decide),
        if_pos rfl, getLong_toNat]
      rfl
  | float bits =>
      rw [wireArg, List.append_assoc, getArg_char (by decide), getArgOf, if_neg (by decide), if_neg (by decide),
        if_neg (by decide), if_pos rfl, getInt_toNat]
      rfl
  | long l =>
      rw [wireArg, List.append_assoc, getArg_char (by decide), getArgOf, if_neg (by decide), if_neg (by decide),
        if_neg (by decide), if_neg (by decide), if_pos rfl, getLong_toNat]
      rfl
  | null =>
      rw [wireArg, getArg_char (by decide), getArgOf, if_neg (by decide), if_neg (by decide), if_neg (by decide),
        if_neg (by decide), if_neg (by decide), if_pos rfl]
      rfl

theorem getArgsLoop_wire (p : Nat) (args : List Arg) :
    getArgsLoop args.length (wireArgs p args ++ rest) = .ok (readArgs p args, rest) := by
  induction args generalizing p with
  | nil => rfl
  | cons a args ih =>
      rw [List.length_cons, getArgsLoop, wireArgs, List.append_assoc, getArg_wire]
      show (getArgsLoop args.length (wireArgs (p + (wireArg p a).length) args ++ rest)).map _ = _
      rw [ih]
      rfl

theorem getArgs_wire (p : Nat) {args : List Arg} (h : args.length ≤ 30) :
    getArgs (BigEndian.bytes 4 args.length ++ (wireArgs p args ++ rest)) =
      .ok (if args = [] then none else some (readArgs p args), rest) := by
  have hint := toInt_ofNat (n := args.length) (by omega)
  have hnat : (BitVec.ofNat 32 args.length).toNat = args.length := by
    rw [BitVec.toNat_ofNat]
    exact Nat.mod_eq_of_lt (by omega)
  rw [getArgs, getInt_bytes (by omega)]
  simp only [bind, Except.bind]
  rw [if_neg (by omega)]
  cases args with
  | nil => rfl
  | cons a as =>
      rw [if_neg, if_neg (by omega), hnat, getArgsLoop_wire, if_neg (List.cons_ne_nil a as)]
      · rfl
      · intro hzero
        rw [hzero] at hnat
        exact Nat.succ_ne_zero _ hnat.symm

theorem shortened_ne_nil {p : Nat} {str : Str} (h : str ≠ []) : shortened p str ≠ [] := by
  rw [shortened]
  split
  case isTrue => exact List.append_ne_nil_of_right_ne_nil _ (by decide)
  case isFalse =>
      intro hnil
      exact h (Utf8.encode_injective hnil)

theorem getMessage_wireString {str : Str} (h : str ≠ []) :
    getMessage (wireString 21 str ++ rest) = .ok (some (Utf8.decode (shortened 21 str)), rest) := by
  have hlength := length_shortened_lt 21 str
  have hpos := List.length_pos_iff.mpr (shortened_ne_nil (p := 21) h)
  have hint := toInt_ofNat hlength
  rw [getMessage, wireString, List.append_assoc, getInt_bytes (by omega)]
  simp only [bind, Except.bind]
  rw [if_neg, if_neg, getArray_append rfl hlength]
  · rfl
  · rw [hint, List.length_append]
    omega
  · intro hzero
    rw [hzero] at hint
    have hnonzero : (0 : Int) < (shortened 21 str).length := by omega
    rw [← hint] at hnonzero
    exact absurd hnonzero (by decide)

theorem getMessage_wire (message : Option Str) :
    getMessage (wireMessage message ++ rest) = .ok (readMessage message, rest) := by
  cases message with
  | none => rw [wireMessage, getMessage, getInt_bytes (by decide)]; rfl
  | some str =>
      cases str with
      | nil => rw [wireMessage, getMessage, getInt_bytes (by decide)]; rfl
      | cons c cs =>
          rw [wireMessage, readMessage, getMessage_wireString (List.cons_ne_nil c cs)]
          · exact List.cons_ne_nil c cs
          · exact List.cons_ne_nil c cs

end

/-! ## Items -/

theorem getEnumByValue_getInt (level : LogLevel) : LogLevel.getEnumByValue level.getInt = some level := by
  cases level <;> rfl

theorem LogItem.ofBytes_of_gets {bytes version b₁ b₂ b₃ b₄ b₅ b₆ : List UInt8} {logtime : BitVec 64}
    {verbosity level ressource : BitVec 32} {message : Option Str} {args : Option (List Arg)}
    (hversion : getBytes 1 bytes = .ok (version, b₁)) (hlogtime : getLong b₁ = .ok (logtime, b₂))
    (hverbosity : getInt b₂ = .ok (verbosity, b₃)) (hlevel : getInt b₃ = .ok (level, b₄))
    (hressource : getInt b₄ = .ok (ressource, b₅)) (hmessage : getMessage b₅ = .ok (message, b₆))
    (hargs : getArgs b₆ = .ok (args, [])) :
    LogItem.ofBytes bytes bytes.length = .ok
      { mArgs := args, mMessage := message, mRessourceId := ressource, mLevel := LogLevel.getEnumByValue level,
        logtime := logtime, mVerbosityLevel := verbosity } := by
  rw [ofBytes, if_neg (by omega), Int.toNat_natCast, List.take_length]
  simp only [bind, Except.bind, hversion, hlogtime, hverbosity, hlevel, hressource, hmessage, hargs]
  rfl

/-- The constructor accepts what the encoder writes. -/
theorem LogItem.ofBytes_wire {li : LogItem} {level : LogLevel} (h : li.mLevel = some level)
    (hargs : li.args.length ≤ 30) : LogItem.ofBytes li.wire li.wire.length = .ok li.restored := by
  have hbytes : li.wire = [0] ++ (BigEndian.bytes 8 li.logtime.toNat ++ (BigEndian.bytes 4 li.mVerbosityLevel.toNat ++
      (BigEndian.bytes 4 level.getInt.toNat ++ (BigEndian.bytes 4 li.mRessourceId.toNat ++
      (wireMessage li.mMessage ++ (BigEndian.bytes 4 li.args.length ++ (wireArgs li.argsStart li.args ++ []))))))) := by
    simp [LogItem.wire, LogItem.wireHead, h]
  rw [hbytes, LogItem.ofBytes_of_gets (getBytes_append (show [(0 : UInt8)].length = 1 from rfl)) (getLong_toNat _)
    (getInt_toNat _) (getInt_toNat _) (getInt_toNat _) (getMessage_wire _) (getArgs_wire _ hargs),
    getEnumByValue_getInt, LogItem.restored, h]

end AllInSafe.Log
