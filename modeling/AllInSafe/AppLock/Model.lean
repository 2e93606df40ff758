import AllInSafe.Library.Text
import AllInSafe.Library.Runs
import AllInSafe.Config.Numbers

/-!
# App lock

`AppLockAccessibilityService`, the toggle of `Ac1_01_applock_init_main`, the list of `EditLockAppActivity` and the
lock screens `Ac0_08_pinpattern_forwarding`, `Ac0_07_pin_verify` and `Ac0_05_pattern_verify`.
-/

namespace AllInSafe.AppLock
open AllInSafe.Library

/-! ## Preferences -/

/-- The file `AppPref`: its booleans by their keys, and the set of strings `locked_apps`. -/
structure AppPref where
  booleans : List (Str × Bool) := []
  locked_apps : Option (List Str) := none
  deriving DecidableEq, Repr

namespace AppPref

def getBoolean (key : Str) (defValue : Bool) (p : AppPref) : Bool :=
  ((p.booleans.find? fun e => e.1 = key).map Prod.snd).getD defValue

def putBoolean (key : Str) (value : Bool) (p : AppPref) : AppPref :=
  { p with booleans := (key, value) :: p.booleans.filter fun e => e.1 ≠ key }

def putLockedApps (values : List Str) (p : AppPref) : AppPref := { p with locked_apps := some values.dedup }

end AppPref

/-! ## The record of the user -/

inductive Value
  | long (n : Int)
  /-- A `Double`, given by its `longValue()`. -/
  | double (n : Int)
  | string (s : Str)
  | null
  /-- An object that is neither a number nor a string. -/
  | other
  deriving DecidableEq, Repr

/-- The cast `as? Long`. -/
def Value.asLong : Value → Option Int
  | .long n => some n
  | _ => none

/-- `longValue()` of what the compiler takes for a `Long`: a cast to `Number`, which other objects fail. -/
def Value.longValue : Value → Option Int
  | .long n => some n
  | .double n => some n
  | .string _ => none
  | .null => none
  | .other => none

def Value.toInt (v : Value) : Option Int := v.longValue.map (Config.wrap 32)

inductive Field
  | missing
  | array (l : List Value)
  | other
  deriving DecidableEq, Repr

/-- The cast to a nullable list; on another type it throws. -/
def Field.cast : Field → Option (Option (List Value))
  | .missing => some none
  | .array l => some (some l)
  | .other => none

/-- The cast `as?`. -/
def Field.safeCast : Field → Option (List Value)
  | .missing => none
  | .array l => some l
  | .other => none

structure Document where
  pin : Field
  pattern : Field
  deriving DecidableEq, Repr

/-! ## Lock screens -/

inductive LockActivity
  | pinpattern_forwarding
  | pin_verify
  | pattern_verify
  deriving DecidableEq, Repr

/-- `pinArray?.get(0) as? Long`. -/
def isPinSet (pinArray : Option (List Value)) : Option (Option Int) :=
  match pinArray with
  | none => some none
  | some l => l[0]?.map Value.asLong

/-- `patternArray?.get(0)?.toInt()`. -/
def isPatternSet (patternArray : Option (List Value)) : Option (Option Int) :=
  match patternArray with
  | none => some none
  | some l => do
      match ← l[0]? with
      | .null => some none
      | v => v.toInt.map some

/-- The activity that the forwarding starts, `some none` where it finishes without one. Here and below `none` is an
exception: the activity shows it in a toast and stays. -/
def forward (document : Document) : Option (Option LockActivity) := do
  let pinSet ← isPinSet (← document.pin.cast)
  let patternSet ← isPatternSet document.pattern.safeCast
  if pinSet = some 1 then some (some .pin_verify)
  else if patternSet = some 1 then some (some .pattern_verify)
  else some none

structure PinResult where
  finished : Bool
  verified : Bool
  deriving DecidableEq, Repr

def verifyPin (inputPin : Str) (document : Document) : Option PinResult := do
  let pinArray ← document.pin.cast
  let pinSet ← isPinSet pinArray
  let savedPin ← match pinArray with
    | none => some none
    | some l => l[1]?.map some
  return { finished := pinArray = none || pinSet = some 0, verified := savedPin = some (.string inputPin) }

/-- The sorted map from the orders to the dots. -/
def visit (order : Int) (dot : Nat) : List (Int × Nat) → List (Int × Nat)
  | [] => [(order, dot)]
  | (o, d) :: visitOrder =>
      if order < o then (order, dot) :: (o, d) :: visitOrder
      else if order = o then (order, dot) :: visitOrder
      else (o, d) :: visit order dot visitOrder

def savedPattern (orders : List Int) : List Nat :=
  (orders.zipIdx.foldl (fun visitOrder e => if e.1 > 0 then visit e.1 e.2 visitOrder else visitOrder) []).map Prod.snd

def verifyPattern (inputPattern : List Nat) (document : Document) : Option Bool :=
  match document.pattern.safeCast with
  | none => some false
  | some [] => some false
  | some (v :: patternData) => do
      let hasPattern := (← v.longValue) = 1
      if hasPattern then return inputPattern = savedPattern (← patternData.mapM Value.toInt) else return false

/-! ## The phone -/

/-- The static fields of `AppLockAccessibilityService`. -/
structure Companion where
  lockedPackageList : List Str := []
  onoff : Bool := false
  isLockActivityRunning : Bool := false
  deriving DecidableEq, Repr

structure AppInfo where
  packageName : Str
  isChecked : Bool
  deriving DecidableEq, Repr

structure Phone where
  companion : Companion := {}
  appPref : AppPref := {}
  /-- In the file `AppLockPrefs`. -/
  lastUnlockTime : Option Nat := none
  connected : Bool := false
  /-- The apps of the open `EditLockAppActivity`. -/
  apps : Option (List AppInfo) := none
  /-- The lock activities that are not finished, the upper one first, and whether they are on the screen. -/
  task : List LockActivity := []
  front : Bool := false
  deriving DecidableEq, Repr

namespace Phone

def lockActivityOnScreen (s : Phone) : Bool := s.front && !s.task.isEmpty

/-! ### AppLockAccessibilityService -/

def loadLockedApps (s : Phone) : List Str := s.appPref.locked_apps.getD []

def loadOnoff (s : Phone) : Bool := s.appPref.getBoolean "onoff" false

def onServiceConnected (s : Phone) : Phone :=
  { s with connected := true, companion := { s.companion with onoff := s.loadOnoff, lockedPackageList := s.loadLockedApps } }

/-- An activity that is started on the task brings it to the front. -/
def startActivity (a : LockActivity) (s : Phone) : Phone := { s with task := a :: s.task, front := true }

/-- The event is a change of the window's state. -/
def onAccessibilityEvent (packageName : Option Str) (now : Nat) (s : Phone) : Phone :=
  if (now : Int) - s.lastUnlockTime.getD 0 < 10000 then s
  else if s.companion.onoff then
    if packageName ∈ s.companion.lockedPackageList.map some then
      if !s.companion.isLockActivityRunning then
        { s with companion := { s.companion with isLockActivityRunning := true } }.startActivity .pinpattern_forwarding
      else s
    else s
  else s

/-! ### The toggle and the list -/

def startApplock (s : Phone) : Phone :=
  { s with
    appPref := s.appPref.putBoolean "applock_onoff" !s.companion.onoff
    companion := { s.companion with onoff := !s.companion.onoff } }

def editLockApp (installed : List Str) (s : Phone) : Phone :=
  { s with apps := some (installed.map fun packageName => ⟨packageName, s.companion.lockedPackageList.contains packageName⟩) }

def checkApp (position : Nat) (isChecked : Bool) (apps : List AppInfo) (s : Phone) : Phone :=
  let apps := apps.modify position fun app => { app with isChecked := isChecked }
  let lockedPackageList := (apps.filter AppInfo.isChecked).map AppInfo.packageName
  { s with
    apps := some apps
    companion := { s.companion with lockedPackageList := lockedPackageList }
    appPref := s.appPref.putLockedApps lockedPackageList }

/-! ### The lock activities -/

/-- `finish` of the upper activity. -/
def finish (s : Phone) : Phone := { s with task := s.task.tail }

def recordLoaded (document : Option Document) (s : Phone) : Phone :=
  match document.bind forward with
  | none => s
  | some none => s.finish
  | some (some a) => s.finish.startActivity a

/-- The verified user: `finishAffinity` finishes the whole task. -/
def unlock (now : Nat) (s : Phone) : Phone :=
  { s with lastUnlockTime := some now, companion := { s.companion with isLockActivityRunning := false }, task := [] }

def pinVerified (now : Nat) (inputPin : Str) (document : Option Document) (s : Phone) : Phone :=
  match document.bind (verifyPin inputPin) with
  | none => s
  | some r => if r.verified then s.unlock now else if r.finished then s.finish else s

def patternVerified (now : Nat) (inputPattern : List Nat) (document : Option Document) (s : Phone) : Phone :=
  if document.bind (verifyPattern inputPattern) = some true then s.unlock now else s

/-- `onUserLeaveHint` of the verifying activities: a forwarding below them is started again with the activities above
it cleared. -/
def onUserLeaveHint (s : Phone) : Phone :=
  let below := s.task.dropWhile (· ≠ .pinpattern_forwarding)
  { s with task := .pinpattern_forwarding :: (if below.isEmpty then s.task else below.tail), front := true }

end Phone

/-! ## Events -/

inductive Event
  /-- The process of the app died, with its static fields and activities. -/
  | processStarted
  | serviceConnected
  | toggle
  | editLockApp (installed : List Str)
  | checkApp (position : Nat) (isChecked : Bool)
  | window (packageName : Option Str) (now : Nat)
  /-- The document that the forwarding has asked for, `none` where it could not be loaded. -/
  | recordLoaded (document : Option Document)
  | pinEntered (now : Nat) (inputPin : Str) (document : Option Document)
  | patternEntered (now : Nat) (inputPattern : List Nat) (document : Option Document)
  | back
  /-- The home or the overview button. -/
  | userLeaves
  /-- Another app covers the lock activity without a choice of the user. -/
  | covered
  | returned
  deriving DecidableEq, Repr

namespace Phone

def handle (s : Phone) : Event → Option Phone
  | .processStarted => some { s with companion := {}, connected := false, apps := none, task := [], front := false }
  | .serviceConnected => some s.onServiceConnected
  | .toggle => some s.startApplock
  | .editLockApp installed => some (s.editLockApp installed)
  | .checkApp position isChecked => s.apps.map fun apps => s.checkApp position isChecked apps
  | .window packageName now => if s.connected then some (s.onAccessibilityEvent packageName now) else none
  | .recordLoaded document => if s.task.head? = some .pinpattern_forwarding then some (s.recordLoaded document) else none
  | .pinEntered now inputPin document =>
      if s.task.head? = some .pin_verify then some (s.pinVerified now inputPin document) else none
  | .patternEntered now inputPattern document =>
      if s.task.head? = some .pattern_verify then some (s.patternVerified now inputPattern document) else none
  -- the verifying activities override `onBackPressed` with nothing
  | .back =>
      if s.lockActivityOnScreen then
        if s.task.head? = some .pinpattern_forwarding then some s.finish else some s
      else none
  | .userLeaves =>
      if s.lockActivityOnScreen then
        if s.task.head? = some .pinpattern_forwarding then some { s with front := false } else some s.onUserLeaveHint
      else none
  | .covered => if s.lockActivityOnScreen then some { s with front := false } else none
  | .returned => some { s with front := true }

end Phone

def phone : Machine Phone Event where
  init := {}
  step := Phone.handle

end AllInSafe.AppLock
