import Cronet.Lib.Ascii
import Cronet.Lib.Cut

namespace Cronet.Url

/-- The text of a `str`. -/
abbrev Str := List Char

instance : LawfulBEq Str := inferInstance

def isascii (s : Str) : Bool := s.all (·.toNat < 128)

/-- What the interpreter's Unicode tables, its `repr` and its `ipaddress` module answer. -/
class Python where
  lower : Str → Str
  upper : Str → Str
  normalizeNFKC : Str → Str
  isIPv6Address : Str → Bool
  repr : Str → String
  lower_ascii : ∀ {s : Str}, isascii s → lower s = s.map Char.toLower
  upper_ascii : ∀ {s : Str}, isascii s → upper s = s.map Char.toUpper
  lower_symbol : ∀ {s : Str} {c : Char}, c ∈ lower s → c.toNat < 128 → c.isAlpha = false → c ∈ s
  lower_empty : ∀ {s : Str}, lower s = [] → s = []

@[reducible] def asciiPython : Python where
  lower s := s.map Char.toLower
  upper s := s.map Char.toUpper
  normalizeNFKC s := s
  isIPv6Address s := s = "::1".toList
  repr s := "'" ++ String.ofList s ++ "'"
  lower_ascii _ := rfl
  upper_ascii _ := rfl
  lower_symbol member _ symbol := (Ascii.mem_map_toLower symbol).mp member
  lower_empty empty := List.map_eq_nil_iff.mp empty

inductive ValueError where
  | invalidIPv6Url
  | invalidIPvFuture
  | notAnIPv6Address
  | invalidUnderNFKC (netloc : Str)
  | portNotANumber (port : Str)
  | intTooLong (digits : Nat)
  | portOutOfRange
  deriving DecidableEq

variable [Python]

/-- A component is `none` where its delimiter does not occur. -/
structure SplitResult where
  scheme : Option Str
  netloc : Option Str
  path : Str
  query : Option Str
  fragment : Option Str
  deriving DecidableEq

def isC0OrSpace (c : Char) : Bool := c.toNat ≤ 0x20

def isUnsafe (c : Char) : Bool := c ∈ ['\t', '\r', '\n']

def isSchemeChar (c : Char) : Bool := c.isAlphanum || c ∈ ['+', '-', '.']

def isNetlocEnd (c : Char) : Bool := c ∈ ['/', '?', '#']

def isScheme (s : Str) : Bool := (s.head?.any Char.isAlpha) && s.all isSchemeChar

def splitScheme (url : Str) : Option Str × Str :=
  let cut := Cut.first ':' url
  if cut.found && isScheme cut.before then (some (Python.lower cut.before), cut.after) else (none, url)

def splitNetloc : Str → Option Str × Str
  | '/' :: '/' :: rest => (some (rest.takeWhile (!isNetlocEnd ·)), rest.dropWhile (!isNetlocEnd ·))
  | url => (none, url)

def splitTail (sep : Char) (url : Str) : Str × Option Str :=
  let cut := Cut.first sep url
  (cut.before, if cut.found then some cut.after else none)

def cleaned (url : Str) : Str := (url.dropWhile isC0OrSpace).filter (!isUnsafe ·)

def components (url : Str) : SplitResult :=
  let (scheme, url) := splitScheme (cleaned url)
  let (netloc, url) := splitNetloc url
  let (url, fragment) := splitTail '#' url
  let (path, query) := splitTail '?' url
  { scheme, netloc, path, query, fragment }

def isIPvFuture : Str → Bool
  | 'v' :: rest =>
    let isHex := fun c : Char => c.isDigit || c ∈ "abcdefABCDEF".toList
    !(rest.takeWhile isHex).isEmpty && match rest.dropWhile isHex with
      | '.' :: tail => !tail.isEmpty && '\n' ∉ tail
      | _ => false
  | _ => false

def checkBracketedHost (hostname : Str) : Except ValueError Unit :=
  if hostname.head? = some 'v' then
    if isIPvFuture hostname then .ok () else .error .invalidIPvFuture
  else if Python.isIPv6Address hostname then .ok ()
  else .error .notAnIPv6Address

def checkBracketedNetloc (netloc : Str) : Except ValueError Unit :=
  let hostnameAndPort := (Cut.last '@' netloc).after
  let bracket := Cut.first '[' hostnameAndPort
  if bracket.found then
    let closing := Cut.first ']' bracket.after
    if bracket.before ≠ [] then .error .invalidIPv6Url
    else if closing.after ≠ [] ∧ closing.after.head? ≠ some ':' then .error .invalidIPv6Url
    else checkBracketedHost closing.before
  else checkBracketedHost (Cut.first ':' hostnameAndPort).before

def checkBrackets (netloc : Str) : Except ValueError Unit :=
  if '[' ∈ netloc ∧ ']' ∈ netloc then checkBracketedNetloc netloc
  else if '[' ∈ netloc ∨ ']' ∈ netloc then .error .invalidIPv6Url
  else .ok ()

def checkNetloc (netloc : Str) : Except ValueError Unit :=
  if isascii netloc then .ok ()
  else
    let n := netloc.filter (· ∉ ['@', ':', '#', '?'])
    if (Python.normalizeNFKC n).any (· ∈ "/?#@:".toList) ∧ n ≠ Python.normalizeNFKC n then
      .error (.invalidUnderNFKC netloc)
    else .ok ()

def urlsplit (url : Str) : Except ValueError SplitResult := do
  let parts := components url
  checkBrackets (parts.netloc.getD [])
  checkNetloc (parts.netloc.getD [])
  return parts

/-- A host as `hostname` folds it: zone information keeps its case. -/
def foldHost (hostname : Str) : Str :=
  let percent := Cut.first '%' hostname
  Python.lower percent.before ++ (if percent.found then ['%'] else []) ++ percent.after

namespace SplitResult

/-- `_hostinfo`: the host without its brackets, and the text after its colon unless empty. -/
def hostinfo (parts : SplitResult) : Str × Option Str :=
  let hostinfo := (Cut.last '@' (parts.netloc.getD [])).after
  let bracket := Cut.first '[' hostinfo
  let (hostname, port) :=
    if bracket.found then
      let closing := Cut.first ']' bracket.after
      (closing.before, (Cut.first ':' closing.after).after)
    else
      let colon := Cut.first ':' hostinfo
      (colon.before, colon.after)
  (hostname, if port = [] then none else some port)

/-- The user name of `_userinfo`. -/
def username (parts : SplitResult) : Option Str :=
  let userinfo := Cut.last '@' (parts.netloc.getD [])
  if userinfo.found then some (Cut.first ':' userinfo.before).before else none

def hostname (parts : SplitResult) : Option Str :=
  if parts.hostinfo.1 = [] then none else some (foldHost parts.hostinfo.1)

def decimal (digits : Str) : Nat := digits.foldl (fun n c => 10 * n + (c.toNat - '0'.toNat)) 0

/-- `sys.get_int_max_str_digits()`, leading zeros counted. -/
def INT_MAX_STR_DIGITS : Nat := 4300

/-- `int` of digits alone. -/
def int (digits : Str) : Except ValueError Nat :=
  if digits.length ≤ INT_MAX_STR_DIGITS then .ok (decimal digits) else .error (.intTooLong digits.length)

/-- Text that is both `isdigit` and `isascii` is made of ASCII digits. -/
def port (parts : SplitResult) : Except ValueError (Option Nat) :=
  match parts.hostinfo.2 with
  | none => .ok none
  | some port =>
    if !port.all Char.isDigit then .error (.portNotANumber port)
    else do
      let number ← int port
      if number ≤ 65535 then .ok (some number) else .error .portOutOfRange

end SplitResult

abbrev Origin := Str × Str × Option Nat

def origin (url : Str) : Except ValueError Origin := do
  let parts ← urlsplit url
  let port ← parts.port
  return (parts.scheme.getD [], parts.hostname.getD [], port)

end Cronet.Url
