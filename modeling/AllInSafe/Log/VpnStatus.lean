import AllInSafe.Log.LogItem

/-!
# The log buffer

`newLogItem` of `VpnStatus` as far as it changes the log buffer, `equals` of `LogItem`, `newLogItemIfUnique`, and the
buffer after a mixture of logging calls.
-/

namespace AllInSafe.Log
open AllInSafe.Library

def MAXLOGENTRIES : Nat := 1000

/-- The loop over the items; a new item goes in front of the first later one. -/
def insertInLoop (logItem : LogItem) : List LogItem → List LogItem
  | [] => [logItem]
  | laterLogItem :: logbuffer =>
      if laterLogItem.logtime.toInt > logItem.logtime.toInt then logItem :: laterLogItem :: logbuffer
      else laterLogItem :: insertInLoop logItem logbuffer

/-- Without the comparison of `enforceUnique`. -/
def insertLogItemByLogTime (logItem : LogItem) (logbuffer : List LogItem) : List LogItem :=
  match logbuffer.getLast? with
  | some last =>
      if last.logtime.toInt ≤ logItem.logtime.toInt then logbuffer ++ [logItem] else insertInLoop logItem logbuffer
  | none => insertInLoop logItem logbuffer

def trim (logbuffer : List LogItem) : List LogItem :=
  if logbuffer.length > MAXLOGENTRIES + MAXLOGENTRIES / 2 then logbuffer.drop (logbuffer.length - MAXLOGENTRIES)
  else logbuffer

def newLogItem (logItem : LogItem) (cachedLine : Bool) (logbuffer : List LogItem) : List LogItem :=
  trim (if cachedLine then logItem :: logbuffer else insertLogItemByLogTime logItem logbuffer)


/-! ## LogItem -/

/-- `Objects.equals` for the classes of the arguments. -/
structure ArgEquals where
  equals : Arg → Arg → Bool
  refl : ∀ a, equals a a = true

/-- `Arrays.equals`. -/
def ArgEquals.arrays (E : ArgEquals) : Option (List Arg) → Option (List Arg) → Bool
  | none, none => true
  | some as, some bs => as.length = bs.length && (as.zip bs).all fun p => E.equals p.1 p.2
  | _, _ => false

def messagesEqual : (mMessage other : Option Str) → Except Throwable Bool
  | none, none => .ok true
  | some _, none => .ok false
  | none, some _ => .error .nullPointer
  | some mMessage, some other => .ok (mMessage = other)

def levelsEqual : (mLevel other : Option LogLevel) → Except Throwable Bool
  | none, none => .ok true
  | none, some _ => .ok false
  | some _, none => .error .nullPointer
  | some mLevel, some other => .ok (other = mLevel)

namespace LogItem

def equals (E : ArgEquals) (li other : LogItem) : Except Throwable Bool := do
  if !E.arrays li.mArgs other.mArgs then return false
  if !(← messagesEqual li.mMessage other.mMessage) then return false
  if li.mRessourceId ≠ other.mRessourceId then return false
  if !(← levelsEqual li.mLevel other.mLevel) then return false
  return li.mVerbosityLevel = other.mVerbosityLevel && li.logtime = other.logtime

end LogItem

/-! ## VpnStatus -/

variable (E : ArgEquals)

/-- The loop over the items with the comparison of `enforceUnique`. -/
def insertUniqueInLoop (logItem : LogItem) : List LogItem → Except Throwable (List LogItem)
  | [] => .ok [logItem]
  | laterLogItem :: logbuffer => do
      if ← laterLogItem.equals E logItem then return laterLogItem :: logbuffer
      else if laterLogItem.logtime.toInt > logItem.logtime.toInt then return logItem :: laterLogItem :: logbuffer
      else return laterLogItem :: (← insertUniqueInLoop logItem logbuffer)

def insertUniqueByLogTime (logItem : LogItem) (logbuffer : List LogItem) : Except Throwable (List LogItem) :=
  match logbuffer.getLast? with
  | some last =>
      if last.logtime.toInt ≤ logItem.logtime.toInt then .ok (logbuffer ++ [logItem])
      else insertUniqueInLoop E logItem logbuffer
  | none => insertUniqueInLoop E logItem logbuffer

def newLogItemIfUnique (li : LogItem) (logbuffer : List LogItem) : Except Throwable (List LogItem) :=
  (insertUniqueByLogTime E li logbuffer).map trim

inductive LoggingCall
  | newLogItem (logItem : LogItem) (cachedLine : Bool)
  | newLogItemIfUnique (li : LogItem)
  deriving DecidableEq, Repr

/-- A call that throws leaves the buffer alone. -/
def LoggingCall.apply (logbuffer : List LogItem) : LoggingCall → List LogItem
  | .newLogItem logItem cachedLine => Log.newLogItem logItem cachedLine logbuffer
  | .newLogItemIfUnique li =>
      match Log.newLogItemIfUnique E li logbuffer with
      | .ok logbuffer => logbuffer
      | .error _ => logbuffer

def bufferAfter (calls : List LoggingCall) : List LogItem := calls.foldl (LoggingCall.apply E) []

end AllInSafe.Log
