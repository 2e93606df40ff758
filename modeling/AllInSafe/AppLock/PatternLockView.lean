import AllInSafe.AppLock.Model

/-!
# Drawing and storing a pattern

`PatternLockView`, `setPattern` of `Ac0_04_pattern_setup` and `savePinToFirebase` of `Ac0_06_pin_setup`.
-/

namespace AllInSafe.AppLock
open AllInSafe.Library

/-! ## The view -/

structure Dot (F : Type) where
  x : F
  y : F
  deriving DecidableEq, Repr

/-- The lines and the place of the finger are only drawn. -/
structure PatternLockView (F : Type) where
  dots : List (Dot F) := []
  selectedDots : List Nat := []
  isDrawing : Bool := false
  deriving DecidableEq, Repr

inductive MotionEvent (F : Type)
  | down (x y : F)
  | move (x y : F)
  | up
  /-- An action that the view leaves to its superclass. -/
  | other
  deriving DecidableEq, Repr

namespace PatternLockView

-- the operations of `Float`: nothing is assumed of them
variable {F : Type} [Add F] [Sub F] [Mul F] [Div F] [NatCast F] [LE F] [DecidableLE F]

def setupDots (width height : Nat) (v : PatternLockView F) : PatternLockView F :=
  let centerX : F := (width : F) / ((2 : Nat) : F)
  let centerY : F := (height : F) / ((2 : Nat) : F)
  let spacing : F := (min width height : Nat) / ((5 : Nat) : F)
  let place (i : Nat) : F := ((i : F) - ((3 : Nat) : F) / ((2 : Nat) : F)) * spacing
  { v with
    dots := (List.range 4).flatMap fun row => (List.range 4).map fun col => ⟨centerX + place col, centerY + place row⟩ }

def clearPattern (v : PatternLockView F) : PatternLockView F := { v with selectedDots := [] }

variable (sqrt : F → F)

/-- `none` for `-1`. -/
def findTouchedDot (x y : F) (v : PatternLockView F) : Option Nat :=
  v.dots.findIdx? fun dot =>
    let distance := sqrt ((x - dot.x) * (x - dot.x) + (y - dot.y) * (y - dot.y))
    decide (distance ≤ ((50 : Nat) : F))

def selectDot (touchedDot : Nat) (v : PatternLockView F) : PatternLockView F :=
  { v with selectedDots := v.selectedDots ++ [touchedDot] }

/-- The view after the event, and the pattern that is given to `onPatternComplete`. -/
def onTouchEvent (v : PatternLockView F) : MotionEvent F → PatternLockView F × Option (List Nat)
  | .down x y =>
      match v.findTouchedDot sqrt x y with
      | some touchedDot => ({ v with isDrawing := true }.selectDot touchedDot, none)
      | none => ({ v with isDrawing := true }, none)
  | .move x y =>
      if v.isDrawing then
        match v.findTouchedDot sqrt x y with
        | some touchedDot =>
            if touchedDot ∈ v.selectedDots then (v, none) else (v.selectDot touchedDot, none)
        | none => (v, none)
      else (v, none)
  | .up => ({ v with isDrawing := false }, if v.selectedDots.length ≥ 2 then some v.selectedDots else none)
  | .other => (v, none)

/-- The patterns that the events deliver. -/
def patterns (v : PatternLockView F) : List (MotionEvent F) → List (List Nat)
  | [] => []
  | e :: events => (v.onTouchEvent sqrt e).2.toList ++ patterns (v.onTouchEvent sqrt e).1 events

end PatternLockView

/-! ## The record -/

/-- An index of a dot that the array has no place for is an exception. -/
def patternData (pattern : List Nat) : Option (List Int) :=
  pattern.zipIdx.foldlM (fun patternData e =>
      if e.1 + 1 < patternData.length then some (patternData.set (e.1 + 1) (Config.wrap 32 (e.2 + 1))) else none)
    ((List.replicate 17 0).set 0 1)

namespace Document

/-- The record after both updates. -/
def setPattern (pattern : List Nat) (document : Document) : Option Document := do
  let patternData ← patternData pattern
  let document := { document with pattern := .array (patternData.map .long) }
  return { document with pin := .array [.long 0, .string []] }

def savePin (pin : Str) (document : Document) : Document :=
  let document := { document with pattern := .array (List.replicate 17 (.long 0)) }
  { document with pin := .array [.long 1, .string pin] }

end Document

end AllInSafe.AppLock
