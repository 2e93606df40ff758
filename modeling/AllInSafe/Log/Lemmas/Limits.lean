import AllInSafe.Log.Lemmas.Decode

/-!
# The limit for strings
-/

namespace AllInSafe.Log
open AllInSafe.Library Buffer

/-! ## Strings below their limit -/

/-- A string that is reached at `p` is not longer than its limit. -/
def Arg.Within (p : Nat) : Arg → Prop
  | .string str => p ≤ capacity → (Utf8.encode str).length ≤ 8192 ∧ (Utf8.encode str).length + p ≤ 16256
  | _ => True

def WithinLimits (p : Nat) : List Arg → Prop
  | [] => True
  | a :: as => a.Within (p + 2) ∧ WithinLimits (p + (wireArg p a).length) as

instance (p : Nat) : DecidablePred (Arg.Within p)
  | .string _ => inferInstanceAs (Decidable (_ → _ ∧ _))
  | .int _ | .float _ | .double _ | .long _ | .null | .other _ => inferInstanceAs (Decidable True)

instance WithinLimits.decidable : (p : Nat) → DecidablePred (WithinLimits p)
  | _, [] => inferInstanceAs (Decidable True)
  | p, a :: as =>
      have := decidable (p + (wireArg p a).length) as
      inferInstanceAs (Decidable (_ ∧ _))

namespace LogItem

/-- No truncation limit is reached. -/
def Untruncated (li : LogItem) : Prop :=
  (∀ message ∈ li.mMessage, (Utf8.encode message).length ≤ 8192) ∧ WithinLimits li.argsStart li.args

/-- The arguments are of the classes that have a type of their own. -/
def Standard (li : LogItem) : Prop := ∀ str, .other str ∉ li.args

/-- An empty message or an empty array is `null`. -/
def canonical (li : LogItem) : LogItem :=
  { li with
    mMessage := if li.mMessage = some [] then none else li.mMessage
    mArgs := if li.args = [] then none else li.mArgs }

end LogItem

section

variable {p : Nat} {args : List Arg}

theorem decode_shortened {str : Str} (hlong : (Utf8.encode str).length ≤ 8192)
    (hroom : (Utf8.encode str).length + p ≤ 16256) : Utf8.decode (shortened p str) = str := by
  have hlimit : ¬ limit p < (Utf8.encode str).length := by
    rw [limit]
    omega
  rw [shortened, if_neg hlimit, Utf8.decode_encode]

theorem WithinLimits.room (h : WithinLimits p args) (hstandard : ∀ str, .other str ∉ args) :
    RoomForStrings p args := by
  induction args generalizing p with
  | nil => trivial
  | cons a args ih =>
      obtain ⟨ha, hrest⟩ := h
      refine ⟨fun htext => ?_, ih hrest fun str hmem => hstandard str (List.mem_cons_of_mem a hmem)⟩
      cases a with
      | string str =>
          by_cases hcapacity : p + 2 ≤ capacity
          · have := (ha hcapacity).2
            exact .inl (by omega)
          · exact .inr (by omega)
      | other str => exact absurd List.mem_cons_self (hstandard str)
      | int | float | double | long | null => exact absurd htext Bool.false_ne_true

theorem readArgs_eq (h : WithinLimits p args) (hstandard : ∀ str, .other str ∉ args)
    (hfits : p + (wireArgs p args).length ≤ capacity) : readArgs p args = args := by
  induction args generalizing p with
  | nil => rfl
  | cons a args ih =>
      obtain ⟨ha, hrest⟩ := h
      rw [wireArgs, List.length_append] at hfits
      have hhead : readArg p a = a := by
        cases a with
        | string str =>
            have hwire : (wireArg p (.string str)).length = 6 + (shortened (p + 2) str).length := length_putText _ _
            obtain ⟨hlong, hroom⟩ := ha (by omega)
            rw [readArg, decode_shortened hlong hroom]
        | other str => exact absurd List.mem_cons_self (hstandard str)
        | int | float | double | long | null => rfl
      rw [readArgs, hhead, ih hrest (fun str hmem => hstandard str (List.mem_cons_of_mem a hmem)) (by omega)]

end

namespace LogItem

variable {li : LogItem}

theorem restored_eq_canonical (h : li.Untruncated) (hstandard : li.Standard) (hfits : li.wire.length ≤ capacity) :
    li.restored = li.canonical := by
  have hlength : li.argsStart + (wireArgs li.argsStart li.args).length ≤ capacity := by
    have hstart := length_beforeArgs li
    rw [wire, List.length_append, hstart] at hfits
    exact hfits
  have hmessage : readMessage li.mMessage = if li.mMessage = some [] then none else li.mMessage := by
    have hlimits := h.1
    cases hm : li.mMessage with
    | none => rfl
    | some message =>
        cases message with
        | nil => rfl
        | cons c cs =>
            have hlong := hlimits (c :: cs) hm
            rw [if_neg (by simp), readMessage, decode_shortened hlong (by omega)]
            exact List.cons_ne_nil c cs
  have hargs : (if li.args = [] then none else some (readArgs li.argsStart li.args)) =
      if li.args = [] then none else li.mArgs := by
    rw [readArgs_eq h.2 hstandard hlength]
    split
    case isTrue => rfl
    case isFalse hne =>
        rw [args] at hne ⊢
        cases hm : li.mArgs with
        | none => rw [hm] at hne; exact absurd rfl hne
        | some as => rfl
  rw [restored, canonical, hmessage, hargs]

/-! ## Calls of marschalString -/

/-- The encoder calls `marschalString` while the buffer holds `bb`. -/
inductive MarschalCall (li : LogItem) (bb : Buffer) : Prop
  | message (message : Str) (hmessage : li.mMessage = some message) (hne : message ≠ [])
      (hbuffer : li.putHead = .ok bb)
  | arg (pre : List Arg) (a : Arg) (post : List Arg) (hargs : li.args = pre ++ a :: post) (htext : a.isText)
      (hbuffer : (do
        let bb ← putMessage li.mMessage (← li.putHead)
        let bb ← putInt (BitVec.ofNat 32 li.args.length) bb
        putChar 's' (← pre.foldlM putArg bb)) = .ok bb)

variable {level : LogLevel}

theorem putArgs_before (h : li.mLevel = some level) (hlength : li.args.length ≤ 30) (pre : List Arg) :
    (do
      let bb ← putMessage li.mMessage (← li.putHead)
      let bb ← putInt (BitVec.ofNat 32 li.args.length) bb
      putChar 's' (← pre.foldlM putArg bb)) =
    (pre.foldlM putArg (li.wireHead ++ wireMessage li.mMessage ++ BigEndian.bytes 4 li.args.length) >>=
      putChar 's') := by
  have hhead := length_wireHead li
  have hmessage := length_wireMessage_le li.mMessage
  have hcount : (BitVec.ofNat 32 li.args.length).toNat = li.args.length := by
    rw [BitVec.toNat_ofNat]
    exact Nat.mod_eq_of_lt (by omega)
  have hput : putInt (BitVec.ofNat 32 li.args.length) (li.wireHead ++ wireMessage li.mMessage) =
      .ok (li.wireHead ++ wireMessage li.mMessage ++ BigEndian.bytes 4 li.args.length) := by
    rw [putInt, hcount]
    exact put_ok (by simp [hhead, capacity]; omega)
  simp only [putHead_eq h, putMessage_eq, bind, Except.bind, hput]

/-- With room a call finds the buffer at the position of its string. -/
theorem putChar_before (h : li.mLevel = some level) (hlength : li.args.length ≤ 30) {pre : List Arg}
    (hroom : RoomForStrings li.argsStart pre) :
    (do
      let bb ← putMessage li.mMessage (← li.putHead)
      let bb ← putInt (BitVec.ofNat 32 li.args.length) bb
      putChar 's' (← pre.foldlM putArg bb)) =
    put (wireArgs li.argsStart pre ++ BigEndian.bytes 2 's'.toNat)
      (li.wireHead ++ wireMessage li.mMessage ++ BigEndian.bytes 4 li.args.length) := by
  have hstart := argsStart_le li
  have hbefore := length_beforeArgs li
  have hcapacity : argsStart li ≤ capacity := by rw [capacity]; omega
  rw [putArgs_before h hlength, foldlM_putArg_room (by rw [hbefore]; exact hcapacity) (by rw [hbefore]; exact hroom),
    hbefore]
  exact put_put (by rw [hbefore]; exact hcapacity) _ _

theorem limit_of_room (h : li.mLevel = some level) (hlength : li.args.length ≤ 30) (hroom : li.Room) {bb : Buffer}
    (hcall : li.MarschalCall bb) : 0 ≤ maxStringLength bb := by
  cases hcall with
  | message message _ _ hbuffer =>
      rw [putHead_eq h] at hbuffer
      cases hbuffer
      rw [maxStringLength_of_le (by rw [length_wireHead]; decide)]
      exact Int.natCast_nonneg _
  | arg pre a post hargs htext hbuffer =>
      have hsplit := hroom
      rw [Room, hargs] at hsplit
      obtain ⟨hpre, hpost⟩ := hsplit.append
      rw [putChar_before h hlength hpre] at hbuffer
      have hstart := argsStart_le li
      rw [put_eq (by rw [length_beforeArgs, capacity]; omega)] at hbuffer
      split at hbuffer
      case isTrue hfits =>
          cases hbuffer
          rw [length_beforeArgs, List.length_append, BigEndian.length_bytes] at hfits
          have hhere := hpost.1 htext
          rw [maxStringLength_of_le]
          · exact Int.natCast_nonneg _
          · rw [List.length_append, length_beforeArgs, List.length_append, BigEndian.length_bytes]
            omega
      case isFalse => cases hbuffer

theorem room_of_limits (h : li.mLevel = some level) (hlength : li.args.length ≤ 30)
    (hlimits : ∀ bb, li.MarschalCall bb → 0 ≤ maxStringLength bb) : li.Room := by
  by_contra hroom
  obtain ⟨pre, a, post, hargs, htext, hpre, hlow, hhigh⟩ := exists_of_not_room hroom
  have hfits : li.argsStart + (wireArgs li.argsStart pre ++ BigEndian.bytes 2 's'.toNat).length ≤ capacity := by
    rw [List.length_append, BigEndian.length_bytes]
    omega
  have hbuffer := putChar_before h hlength hpre
  rw [put_ok (by rw [length_beforeArgs]; exact hfits)] at hbuffer
  have hlimit := hlimits _ (.arg pre a post hargs htext hbuffer)
  rw [maxStringLength_eq (by rw [List.length_append, length_beforeArgs]; exact hfits), List.length_append,
    length_beforeArgs, List.length_append, BigEndian.length_bytes] at hlimit
  omega

end LogItem

/-! ## Long arguments -/

theorem length_encode_replicate (n : Nat) : (Utf8.encode (List.replicate n 'a')).length = n := by
  induction n with
  | zero => rfl
  | succ n ih =>
      rw [List.replicate_succ, Utf8.encode_cons, List.length_append, ih, Nat.add_comm]
      rfl

theorem length_shortened_replicate (p n : Nat) :
    (shortened p (List.replicate n 'a')).length = if limit p < n then limit p + 13 else n := by
  have hlength := length_encode_replicate n
  rw [shortened, hlength]
  split
  case isTrue h =>
      rw [List.length_append, length_elipse, List.length_take_of_le (by rw [hlength]; exact Nat.le_of_lt h)]
  case isFalse => exact hlength

theorem length_wireMessage_replicate {n : Nat} (h : 0 < n) :
    (wireMessage (some (List.replicate n 'a'))).length = 4 + if 8192 < n then 8205 else n := by
  have hlength := length_shortened_replicate 21 n
  cases n with
  | zero => exact absurd h (Nat.lt_irrefl 0)
  | succ n =>
      rw [List.replicate_succ] at hlength ⊢
      rw [wireMessage, length_wireString, hlength]
      · rfl
      · exact List.cons_ne_nil _ _

theorem wireArgs_longs (p n : Nat) : (wireArgs p (List.replicate n (.long 0))).length = 10 * n := by
  induction n generalizing p with
  | zero => rfl
  | succ n ih =>
      rw [List.replicate_succ, wireArgs, List.length_append, ih, wireArg, List.length_append, BigEndian.length_bytes,
        BigEndian.length_bytes]
      omega

theorem withinLimits_longs (p n : Nat) : WithinLimits p (List.replicate n (.long 0)) := by
  induction n generalizing p with
  | zero => trivial
  | succ n ih => exact ⟨trivial, ih _⟩

end AllInSafe.Log
