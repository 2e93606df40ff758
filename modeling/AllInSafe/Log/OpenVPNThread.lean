import AllInSafe.Library.Ipv6Text
import AllInSafe.Library.Regex
import AllInSafe.Log.LogItem

/-!
# The output of the OpenVPN process

What `startOpenVPNThreadArgs` of `OpenVPNThread` does with a line of the process.
-/

namespace AllInSafe.Log
open AllInSafe.Library Regex

/-! ## LOG_PATTERN -/

def isDecimal (c : Char) : Bool := '0' ≤ c && c ≤ '9'

def isHex (c : Char) : Bool := isDecimal c || 'a' ≤ c && c ≤ 'f'

/-- The line terminators, which `.` does not match. -/
def isTerminator (c : Char) : Bool := c.toNat ∈ [0x0A, 0x0D, 0x85, 0x2028, 0x2029]

def anyChar : Pattern := .one fun c => !isTerminator c

/-- `(\d+).(\d+) ([0-9a-f])+ (.*)` -/
def LOG_PATTERN : Pattern :=
  .seq (.group 1 (.plus (.one isDecimal))) <| .seq anyChar <| .seq (.group 2 (.plus (.one isDecimal))) <|
    .seq (.one (· = ' ')) <| .seq (.plus (.group 3 (.one isHex))) <| .seq (.one (· = ' ')) <| .group 4 (.star anyChar)

/-! ## OpenVPNThread -/

def DUMP_PATH_STRING : Str := "Dump path: ".toList

def M_FATAL : Nat := 1 <<< 4
def M_NONFATAL : Nat := 1 <<< 5
def M_WARN : Nat := 1 <<< 6
def M_DEBUG : Nat := 1 <<< 7

def logStatus (flags : Nat) : LogLevel :=
  if flags &&& M_FATAL ≠ 0 then .ERROR
  else if flags &&& M_NONFATAL ≠ 0 then .WARNING
  else if flags &&& M_WARN ≠ 0 then .WARNING
  else if flags &&& M_DEBUG ≠ 0 then .VERBOSE
  else .INFO

def logLevel (flags : Nat) (msg : Str) : Nat :=
  if Str.startsWith "MANAGEMENT: CMD" msg then max 4 (flags &&& 0x0F) else flags &&& 0x0F

/-- `Integer.parseInt(s, 16)`, `none` for an exception. -/
def parseHex (s : Str) : Option Nat := if s = [] then none else (Ipv6Text.number 16 s).filter (· < 2 ^ 31)

def logMessageOpenVPN (now : BitVec 64) (level : LogLevel) (ovpnlevel : Nat) (message : Str) : LogItem :=
  { mMessage := some message, mLevel := some level, mVerbosityLevel := ovpnlevel, logtime := now }

def logError (now : BitVec 64) (msg : Str) : LogItem :=
  { mMessage := some msg, mLevel := some .ERROR, logtime := now }

def logInfo (now : BitVec 64) (msg : Str) : LogItem := { mMessage := some msg, mLevel := some .INFO, logtime := now }

def addExtraHints (now : BitVec 64) (msg : Str) : List LogItem :=
  (if Str.endsWith "md too weak" msg && Str.startsWith "OpenSSL: error" msg || Str.containsStr "error:140AB18E" msg ||
      Str.containsStr "SSL_CA_MD_TOO_WEAK" msg || Str.containsStr "ca md too weak" msg then
    [logError now ("OpenSSL reported a certificate with a weak hash, please see the in app FAQ about weak " ++
      "hashes.")]
  else []) ++
  (if Str.containsStr "digital envelope routines::unsupported" msg then
    [logError now ("The encryption method of your private keys/pkcs12 might be outdated and you probably need to " ++
      "enable the OpenSSL legacy provider to be able to use this profile.")]
  else [])

/-- The path of the dump and the logged items after a line; `none` for an exception. -/
def handleLine (now : BitVec 64) (mDumpPath : Option Str) (logline : Str) : Option (Option Str × List LogItem) :=
  let mDumpPath :=
    if Str.startsWith DUMP_PATH_STRING logline then some (logline.drop DUMP_PATH_STRING.length) else mDumpPath
  match firstMatch LOG_PATTERN logline with
  | some m => do
      let flags ← parseHex (← m 3)
      let msg ← m 4
      return (mDumpPath, logMessageOpenVPN now (logStatus flags) (logLevel flags msg) msg :: addExtraHints now msg)
  | none => some (mDumpPath, [logInfo now ("P:".toList ++ logline)])

end AllInSafe.Log
