import AllInSafe.Log.Lemmas.Wire

/-!
# What the encoder returns for an item
-/

namespace AllInSafe.Log
open AllInSafe.Library Buffer

/-! ## The bytes of an item -/

def wireMessage : Option Str → List UInt8
  | none | some [] => BigEndian.bytes 4 0
  | some message => wireString 21 message

namespace LogItem

def wireHead (li : LogItem) : List UInt8 :=
  [0] ++ BigEndian.bytes 8 li.logtime.toNat ++ BigEndian.bytes 4 li.mVerbosityLevel.toNat ++
    BigEndian.bytes 4 (li.mLevel.elim 0 LogLevel.getInt).toNat ++ BigEndian.bytes 4 li.mRessourceId.toNat

def args (li : LogItem) : List Arg := li.mArgs.getD []

/-- Where the first argument begins. -/
def argsStart (li : LogItem) : Nat := 25 + (wireMessage li.mMessage).length

def wire (li : LogItem) : List UInt8 :=
  li.wireHead ++ wireMessage li.mMessage ++ BigEndian.bytes 4 li.args.length ++ wireArgs li.argsStart li.args

end LogItem

/-- Every string argument begins where its limit is not negative, or not at all. -/
def RoomForStrings (p : Nat) : List Arg → Prop
  | [] => True
  | a :: as => (a.isText → p + 2 ≤ 16256 ∨ capacity < p + 2) ∧ RoomForStrings (p + (wireArg p a).length) as

instance RoomForStrings.decidable : (p : Nat) → DecidablePred (RoomForStrings p)
  | _, [] => inferInstanceAs (Decidable True)
  | p, a :: as =>
      have := decidable (p + (wireArg p a).length) as
      inferInstanceAs (Decidable (_ ∧ _))

/-! ## Arguments -/

section

variable {bb bb' : Buffer} {args pre post : List Arg} {a : Arg} {p : Nat}

theorem RoomForStrings.append (h : RoomForStrings p (pre ++ post)) :
    RoomForStrings p pre ∧ RoomForStrings (p + (wireArgs p pre).length) post := by
  induction pre generalizing p with
  | nil => exact ⟨trivial, h⟩
  | cons a pre ih =>
      obtain ⟨ha, hrest⟩ := h
      obtain ⟨hpre, hpost⟩ := ih hrest
      rw [wireArgs, List.length_append, ← Nat.add_assoc]
      exact ⟨⟨ha, hpre⟩, hpost⟩

/-- The first string without room. -/
theorem exists_of_not_room (h : ¬ RoomForStrings p args) :
    ∃ pre a post, args = pre ++ a :: post ∧ a.isText ∧ RoomForStrings p pre ∧
      16256 < p + (wireArgs p pre).length + 2 ∧ p + (wireArgs p pre).length + 2 ≤ capacity := by
  induction args generalizing p with
  | nil => exact absurd trivial h
  | cons a args ih =>
      by_cases ha : a.isText → p + 2 ≤ 16256 ∨ capacity < p + 2
      · have hrest : ¬ RoomForStrings (p + (wireArg p a).length) args := fun hrest => h ⟨ha, hrest⟩
        obtain ⟨pre, b, post, rfl, hb, hpre, hlow, hhigh⟩ := ih hrest
        refine ⟨a :: pre, b, post, rfl, hb, ⟨ha, hpre⟩, ?_⟩
        rw [wireArgs, List.length_append]
        omega
      · rw [Classical.not_imp, not_or] at ha
        obtain ⟨htext, hlow, hhigh⟩ := ha
        exact ⟨[], a, args, rfl, htext, trivial, by simp [wireArgs]; omega, by simp [wireArgs]; omega⟩

theorem putArg_room (h : bb.length ≤ capacity) (ha : a.isText → bb.length + 2 ≤ 16256 ∨ capacity < bb.length + 2) :
    putArg bb a = put (wireArg bb.length a) bb := by
  rw [putArg_eq h, if_neg]
  rintro ⟨htext, hlow, hhigh⟩
  have := ha htext
  rw [capacity] at this
  omega

theorem foldlM_putArg_room (h : bb.length ≤ capacity) (hroom : RoomForStrings bb.length args) :
    args.foldlM putArg bb = put (wireArgs bb.length args) bb := by
  induction args generalizing bb with
  | nil =>
      rw [wireArgs, put_ok (by simpa using h), List.append_nil]
      rfl
  | cons a args ih =>
      obtain ⟨ha, hrest⟩ := hroom
      rw [List.foldlM_cons, putArg_room h ha, wireArgs, ← put_put h]
      by_cases hfits : bb.length + (wireArg bb.length a).length ≤ capacity
      · rw [put_ok hfits]
        have hnext : (bb ++ wireArg bb.length a).length = bb.length + (wireArg bb.length a).length :=
          List.length_append
        rw [← hnext] at hrest hfits ⊢
        exact ih hfits hrest
      · rw [put_overflow h (by omega)]
        rfl

theorem putArg_no_room (h : bb.length ≤ capacity) (htext : a.isText) (hlow : 16256 < bb.length + 2) :
    ¬ ∃ bb', putArg bb a = .ok bb' := by
  rintro ⟨bb', hok⟩
  rw [putArg_eq h] at hok
  split at hok
  case isTrue => cases hok
  case isFalse hclash =>
      have hend : 16380 < bb.length + 2 := by
        by_contra hend
        exact hclash ⟨htext, hlow, by omega⟩
      have hlength : 6 ≤ (wireArg bb.length a).length := length_wireArg_text htext
      rw [put_overflow h (by rw [capacity]; omega)] at hok
      cases hok

/-- Only arguments with room are written to their end. -/
theorem room_of_foldlM_putArg (h : bb.length ≤ capacity) (hok : args.foldlM putArg bb = .ok bb') :
    RoomForStrings bb.length args := by
  by_contra hroom
  obtain ⟨pre, a, post, rfl, htext, hpre, hlow, hhigh⟩ := exists_of_not_room hroom
  have hwritten : (bb ++ wireArgs bb.length pre).length = bb.length + (wireArgs bb.length pre).length :=
    List.length_append
  rw [List.foldlM_append, foldlM_putArg_room h hpre, put_ok (by omega)] at hok
  change (putArg (bb ++ wireArgs bb.length pre) a >>= fun bb => post.foldlM putArg bb) = _ at hok
  cases hput : putArg (bb ++ wireArgs bb.length pre) a with
  | ok next => exact putArg_no_room (by omega) htext (by omega) ⟨next, hput⟩
  | error e => rw [hput] at hok; cases hok

/-- The first string without room stops the encoder, if its length still fits. -/
theorem foldlM_putArg_clash (hpre : RoomForStrings bb.length pre)
    (hclash : Clashes (bb.length + (wireArgs bb.length pre).length) a) :
    (pre ++ a :: post).foldlM putArg bb = .error .indexOutOfBounds := by
  have hend : bb.length + (wireArgs bb.length pre).length ≤ capacity := by
    have := hclash.2.2
    rw [capacity]
    omega
  have hwritten : (bb ++ wireArgs bb.length pre).length = bb.length + (wireArgs bb.length pre).length :=
    List.length_append
  have hput : putArg (bb ++ wireArgs bb.length pre) a = .error .indexOutOfBounds := by
    rw [putArg_eq (by omega), hwritten, if_pos hclash]
  rw [List.foldlM_append, foldlM_putArg_room (by omega) hpre, put_ok hend]
  change (putArg (bb ++ wireArgs bb.length pre) a >>= _) = _
  rw [hput]
  rfl

end

/-! ## Items -/

namespace LogItem

variable {li : LogItem} {level : LogLevel} {bytes : List UInt8}

/-- The strings among the arguments have room. -/
def Room (li : LogItem) : Prop := RoomForStrings li.argsStart li.args

theorem length_wireHead (li : LogItem) : li.wireHead.length = 21 := by
  simp [wireHead]

theorem putHead_eq (h : li.mLevel = some level) : li.putHead = .ok li.wireHead := by
  rw [putHead, wireHead, h]
  rfl

theorem length_wireMessage_le (message : Option Str) : (wireMessage message).length ≤ 8209 := by
  cases message with
  | none => decide
  | some str =>
      cases str with
      | nil => decide
      | cons c cs =>
          have hshort := length_shortened_le 21 (c :: cs)
          have hlimit : limit 21 ≤ 8192 := Nat.min_le_left _ _
          rw [wireMessage, length_wireString]
          · omega
          · exact List.cons_ne_nil c cs

theorem putMessage_eq (li : LogItem) :
    putMessage li.mMessage li.wireHead = .ok (li.wireHead ++ wireMessage li.mMessage) := by
  have hhead := length_wireHead li
  have hnone : putInt 0 li.wireHead = .ok (li.wireHead ++ BigEndian.bytes 4 0) := put_ok (by simp [hhead, capacity])
  cases hmessage : li.mMessage with
  | none => exact hnone
  | some str =>
      cases str with
      | nil => exact hnone
      | cons c cs =>
          have hok : marschalString (c :: cs) li.wireHead =
              .ok (li.wireHead ++ wireString li.wireHead.length (c :: cs)) := marschalString_ok (by rw [hhead]; decide)
          rw [hhead] at hok
          exact hok

theorem putArgs_eq (li : LogItem) (bb : Buffer) : putArgs li.mArgs bb =
    (put (BigEndian.bytes 4 (BitVec.ofNat 32 li.args.length).toNat) bb >>= li.args.foldlM putArg) := by
  rw [args]
  cases li.mArgs with
  | none => simp [putArgs, putInt]
  | some args =>
      cases args with
      | nil => simp [putArgs, putInt]
      | cons a as => rfl

theorem getMarschaledBytes_eq (h : li.mLevel = some level) (hargs : li.args.length ≤ 30) :
    li.getMarschaledBytes = li.args.foldlM putArg
      (li.wireHead ++ wireMessage li.mMessage ++ BigEndian.bytes 4 li.args.length) := by
  have hhead := length_wireHead li
  have hmessage := length_wireMessage_le li.mMessage
  have hcount : (BitVec.ofNat 32 li.args.length).toNat = li.args.length := by
    rw [BitVec.toNat_ofNat]
    exact Nat.mod_eq_of_lt (by omega)
  have hput : put (BigEndian.bytes 4 li.args.length) (li.wireHead ++ wireMessage li.mMessage) =
      .ok (li.wireHead ++ wireMessage li.mMessage ++ BigEndian.bytes 4 li.args.length) :=
    put_ok (by simp [hhead, capacity]; omega)
  rw [getMarschaledBytes, putHead_eq h]
  change (putMessage li.mMessage li.wireHead >>= fun bb => putArgs li.mArgs bb) = _
  rw [putMessage_eq]
  change putArgs li.mArgs (li.wireHead ++ wireMessage li.mMessage) = _
  rw [putArgs_eq, hcount, hput]
  rfl

theorem length_beforeArgs (li : LogItem) :
    (li.wireHead ++ wireMessage li.mMessage ++ BigEndian.bytes 4 li.args.length).length = li.argsStart := by
  simp [length_wireHead, argsStart]
  omega

theorem argsStart_le (li : LogItem) : li.argsStart ≤ 8234 := by
  have hmessage := length_wireMessage_le li.mMessage
  rw [argsStart]
  omega

theorem getMarschaledBytes_clash {pre post : List Arg} {a : Arg} (h : li.mLevel = some level)
    (hlength : li.args.length ≤ 30) (hargs : li.args = pre ++ a :: post) (hpre : RoomForStrings li.argsStart pre)
    (hclash : Clashes (li.argsStart + (wireArgs li.argsStart pre).length) a) :
    li.getMarschaledBytes = .error .indexOutOfBounds := by
  have hbefore := length_beforeArgs li
  rw [getMarschaledBytes_eq h hlength, hargs]
  rw [hargs] at hbefore
  exact foldlM_putArg_clash (by rw [hbefore]; exact hpre) (by rw [hbefore]; exact hclash)

/-- With room for its strings an item is written whole or does not fit. -/
theorem getMarschaledBytes_room (h : li.mLevel = some level) (hargs : li.args.length ≤ 30) (hroom : li.Room) :
    li.getMarschaledBytes = if li.wire.length ≤ capacity then .ok li.wire else .error .bufferOverflow := by
  have hstart := argsStart_le li
  have hlength := length_beforeArgs li
  rw [getMarschaledBytes_eq h hargs, foldlM_putArg_room, put_eq, hlength, wire, List.length_append, hlength]
  · rw [hlength, capacity]
    omega
  · rw [hlength, capacity]
    omega
  · rw [hlength]
    exact hroom

theorem room_of_getMarschaledBytes (h : li.mLevel = some level) (hargs : li.args.length ≤ 30)
    (hok : li.getMarschaledBytes = .ok bytes) : li.Room := by
  have hstart := argsStart_le li
  have hlength := length_beforeArgs li
  rw [getMarschaledBytes_eq h hargs] at hok
  have hroom := room_of_foldlM_putArg (by rw [hlength, capacity]; omega) hok
  rwa [hlength] at hroom

theorem wire_of_getMarschaledBytes (h : li.mLevel = some level) (hargs : li.args.length ≤ 30)
    (hok : li.getMarschaledBytes = .ok bytes) : bytes = li.wire ∧ bytes.length ≤ capacity := by
  rw [getMarschaledBytes_room h hargs (room_of_getMarschaledBytes h hargs hok)] at hok
  split at hok
  case isTrue hfits =>
      cases hok
      exact ⟨rfl, hfits⟩
  case isFalse => cases hok

end LogItem

end AllInSafe.Log
