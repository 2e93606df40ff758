import AllInSafe.Library.Text

/-!
# Options written back to a configuration

`openVpnEscape` and `insertFileData` of `VpnProfile`, and the custom options of `ConfigParser` that use them.
-/

namespace AllInSafe.Config
open AllInSafe.Library

/-! ## VpnProfile -/

def openVpnEscape (unescaped : Str) : Str :=
  let escapedString := Str.replace '\\' "\\\\" unescaped
  let escapedString := Str.replace '"' "\\\"" escapedString
  let escapedString := Str.replace '\n' "\\n" escapedString
  if escapedString = unescaped && !escapedString.contains ' ' && !escapedString.contains '#' &&
      !escapedString.contains ';' && !escapedString = [] && !escapedString.contains '\'' then unescaped
  else '"' :: escapedString ++ ['"']

def INLINE_TAG : Str := "[[INLINE]]"
def DISPLAYNAME_TAG : Str := "[[NAME]]"

def isEmbedded (data : Str) : Bool := Str.startsWith INLINE_TAG data || Str.startsWith DISPLAYNAME_TAG data

def getEmbeddedContent (data : Str) : Str := Str.after INLINE_TAG data

/-- A missing file is `none`. -/
def insertFileData (cfgentry : Str) (filedata : Option Str) : Str :=
  match filedata with
  | none => cfgentry ++ " file missing in config profile\n".toList
  | some filedata =>
      if isEmbedded filedata then
        '<' :: cfgentry ++ ">\n".toList ++ getEmbeddedContent filedata ++ "\n</".toList ++ cfgentry ++ ">\n".toList
      else cfgentry ++ ' ' :: openVpnEscape filedata ++ ['\n']

/-! ## ConfigParser -/

def ignoreOptionsWithArg : List (List Str) :=
  [["setenv", "IV_GUI_VER"], ["setenv", "IV_SSO"], ["setenv", "IV_PLAT_VER"], ["setenv", "IV_OPENVPN_GUI_VERSION"],
    ["engine", "dynamic"], ["setenv", "CLIENT_CERT"], ["resolv-retry", "60"]]

def ignoreThisOption (option : List Str) : Bool :=
  ignoreOptionsWithArg.any fun ignoreOption =>
    ignoreOption.length ≤ option.length && (ignoreOption.zip option).all fun (a, b) => a = b

/-- The line of one option. -/
def getOptionString (optionsline : List Str) : Str :=
  if ignoreThisOption optionsline then []
  else if optionsline.length = 2 && optionsline.head? = some "extra-certs".toList then
    insertFileData "extra-certs" optionsline[1]?
  else optionsline.flatMap (fun arg => openVpnEscape arg ++ [' ']) ++ ['\n']

def getOptionStrings (option : List (List Str)) : Str := option.flatMap getOptionString

end AllInSafe.Config
