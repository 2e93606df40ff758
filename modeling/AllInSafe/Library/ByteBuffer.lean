import AllInSafe.Library.Triple

/-!
# Reading a byte buffer

The part of `java.nio.ByteBuffer` that reads, at an index or at the position, which it moves.
-/

namespace AllInSafe.Library

inductive BufferException
  | indexOutOfBounds
  | bufferUnderflow
  | illegalArgument
  deriving DecidableEq, Repr

/-- The limit is the end of the bytes. -/
structure ByteBuffer where
  bytes : List UInt8
  position : Nat
  position_le : position ≤ bytes.length
  deriving DecidableEq, Repr

namespace ByteBuffer

def wrap (bytes : List UInt8) : ByteBuffer := ⟨bytes, 0, Nat.zero_le _⟩

def moved (b : ByteBuffer) (n : Nat) (h : n ≤ b.bytes.length) : ByteBuffer := ⟨b.bytes, n, h⟩

def remaining (b : ByteBuffer) : Nat := b.bytes.length - b.position

/-- The unsigned value of the byte at an index, `0` behind the end. -/
def byteOf (bytes : List UInt8) (i : Nat) : Nat := (bytes.getD i 0).toNat

/-- The unsigned value of the two bytes from an index on. -/
def shortOf (bytes : List UInt8) (i : Nat) : Nat := byteOf bytes i * 256 + byteOf bytes (i + 1)

/-! ## Programs -/

/-- What an exception has read is not put back. -/
abbrev Read := EStateM BufferException ByteBuffer

def rewind : Read Unit := modify fun b => b.moved 0 (Nat.zero_le _)

def setPosition (newPosition : Nat) : Read Unit := do
  let b ← get
  if h : newPosition ≤ b.bytes.length then set (b.moved newPosition h) else throw .illegalArgument

def getAt (index : Nat) : Read Nat := do
  let b ← get
  if index < b.bytes.length then return byteOf b.bytes index else throw .indexOutOfBounds

def getShortAt (index : Nat) : Read Nat := do
  let b ← get
  if index + 2 ≤ b.bytes.length then return shortOf b.bytes index else throw .indexOutOfBounds

def getByte : Read Nat := do
  let b ← get
  if h : b.position + 1 ≤ b.bytes.length then
    set (b.moved (b.position + 1) h)
    return byteOf b.bytes b.position
  else throw .bufferUnderflow

def getShort : Read Nat := do
  let b ← get
  if h : b.position + 2 ≤ b.bytes.length then
    set (b.moved (b.position + 2) h)
    return shortOf b.bytes b.position
  else throw .bufferUnderflow

/-! ## What they read -/

variable {b : ByteBuffer} {i n : Nat}

@[simp] theorem wrap_bytes (bytes : List UInt8) : (wrap bytes).bytes = bytes := rfl

@[simp] theorem moved_bytes (h : n ≤ b.bytes.length) : (b.moved n h).bytes = b.bytes := rfl

@[simp] theorem moved_position (h : n ≤ b.bytes.length) : (b.moved n h).position = n := rfl

@[simp] theorem moved_moved (h : n ≤ b.bytes.length) (hi : i ≤ (b.moved n h).bytes.length) :
    (b.moved n h).moved i hi = b.moved i hi := rfl

theorem rewind_ok : rewind b = .ok () (b.moved 0 (Nat.zero_le _)) := rfl

theorem setPosition_ok (h : n ≤ b.bytes.length) : setPosition n b = .ok () (b.moved n h) := by
  simp [setPosition, bind, EStateM.bind, get, getThe, MonadStateOf.get, EStateM.get, set, EStateM.set, h]

theorem getAt_ok (h : i < b.bytes.length) : getAt i b = .ok (byteOf b.bytes i) b := by
  simp [getAt, bind, EStateM.bind, get, getThe, MonadStateOf.get, EStateM.get, h, pure, EStateM.pure]

theorem getAt_error (h : ¬ i < b.bytes.length) : getAt i b = .error .indexOutOfBounds b := by
  simp [getAt, bind, EStateM.bind, get, getThe, MonadStateOf.get, EStateM.get, h, throw, throwThe, MonadExceptOf.throw,
    EStateM.throw]

theorem getShortAt_ok (h : i + 2 ≤ b.bytes.length) : getShortAt i b = .ok (shortOf b.bytes i) b := by
  simp [getShortAt, bind, EStateM.bind, get, getThe, MonadStateOf.get, EStateM.get, h, pure, EStateM.pure]

theorem getShortAt_error (h : ¬ i + 2 ≤ b.bytes.length) : getShortAt i b = .error .indexOutOfBounds b := by
  simp [getShortAt, bind, EStateM.bind, get, getThe, MonadStateOf.get, EStateM.get, h, throw, throwThe,
    MonadExceptOf.throw, EStateM.throw]

theorem getByte_ok (h : b.position + 1 ≤ b.bytes.length) :
    getByte b = .ok (byteOf b.bytes b.position) (b.moved (b.position + 1) h) := by
  simp [getByte, bind, EStateM.bind, get, getThe, MonadStateOf.get, EStateM.get, set, EStateM.set, h, pure, EStateM.pure]

theorem getShort_ok (h : b.position + 2 ≤ b.bytes.length) :
    getShort b = .ok (shortOf b.bytes b.position) (b.moved (b.position + 2) h) := by
  simp [getShort, bind, EStateM.bind, get, getThe, MonadStateOf.get, EStateM.get, set, EStateM.set, h, pure,
    EStateM.pure]

/-- A read of some width, once for every element of a list. -/
theorem mapM_ok {ι : Type} {m : Read Nat} {value : List UInt8 → Nat → Nat} {width : Nat}
    (hm : ∀ b : ByteBuffer, ∀ h : b.position + width ≤ b.bytes.length,
      m b = .ok (value b.bytes b.position) (b.moved (b.position + width) h))
    (l : List ι) {b : ByteBuffer} (h : b.position + width * l.length ≤ b.bytes.length) :
    (l.mapM fun _ => m) b =
      .ok ((List.range l.length).map fun k => value b.bytes (b.position + width * k))
        (b.moved (b.position + width * l.length) h) := by
  induction l generalizing b with
  | nil => rfl
  | cons a l ih =>
      have hwidth : width * (l.length + 1) = width + width * l.length := by ring
      rw [List.length_cons, hwidth] at h
      have hfirst : b.position + width ≤ b.bytes.length := by omega
      have hrest : (b.moved (b.position + width) hfirst).position + width * l.length ≤
          (b.moved (b.position + width) hfirst).bytes.length := by
        rw [moved_position, moved_bytes]
        omega
      rw [List.mapM_cons, bind_ok (hm b hfirst), bind_ok (ih hrest)]
      simp only [List.length_cons, List.range_succ_eq_map, List.map_cons, List.map_map, moved_position, moved_bytes,
        Function.comp_def, Nat.mul_succ, Nat.mul_zero, Nat.add_zero]
      simp [pure, EStateM.pure, moved, Nat.add_assoc, Nat.add_comm, Nat.add_left_comm]

end ByteBuffer

end AllInSafe.Library
