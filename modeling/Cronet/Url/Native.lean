import Cronet.Url.Split
import Mathlib.Data.List.DropRight

namespace Cronet.Url

/-- The stack's host parser: percent decoding, IDNA and address canonicalization. ASCII letters
    count in either case, and a bracket opens nothing but an IPv6 literal. -/
class HostParser (Host : Type) where
  parse : Str → Option Host
  ascii_case : ∀ {s : Str}, isascii s → parse (s.map Char.toLower) = parse s
  bracketed : ∀ {rest : Str} {host : Host}, parse ('[' :: rest) = some host →
    ∃ literal, rest = literal ++ [']'] ∧ isascii literal = true ∧ ':' ∈ literal

def isAuthorityEnd (c : Char) : Bool := c ∈ ['/', '\\', '?', '#']

def isSlash (c : Char) : Bool := c ∈ ['/', '\\']

def trimmed (url : Str) : Str := ((url.dropWhile isC0OrSpace).rdropWhile isC0OrSpace).filter (!isUnsafe ·)

def schemeState (input : Str) : Option (Str × Str) :=
  match input.dropWhile isSchemeChar with
  | ':' :: rest =>
    if (input.takeWhile isSchemeChar).head?.any Char.isAlpha then
      some ((input.takeWhile isSchemeChar).map Char.toLower, rest)
    else none
  | _ => none

/-- Of a special scheme: any run of slashes opens the authority and a backslash ends it too. -/
def authorityState (rest : Str) : Str := (rest.dropWhile isSlash).takeWhile (!isAuthorityEnd ·)

def hostState : Bool → Str → Str × Option Str
  | _, [] => ([], none)
  | inside, c :: rest =>
    if c = ':' ∧ inside = false then ([], some rest)
    else
      let inside := if c = '[' then true else if c = ']' then false else inside
      (c :: (hostState inside rest).1, (hostState inside rest).2)

def portState : Option Str → Option (Option Nat)
  | none | some [] => some none
  | some digits =>
    if digits.all Char.isDigit ∧ SplitResult.decimal digits ≤ 65535 then some (some (SplitResult.decimal digits))
    else none

def defaultPort (scheme : Str) : Nat := if scheme = "https".toList then 443 else 80

structure Written where
  scheme : Str
  host : Str
  port : Option Nat
  deriving DecidableEq

def written (url : Str) : Option Written := do
  let (scheme, rest) ← schemeState (trimmed url)
  if scheme ∉ ["http".toList, "https".toList] then none
  else
    let (host, port) := hostState false (Cut.last '@' (authorityState rest)).after
    if host = [] then none
    else
      let port ← portState port
      return { scheme, host, port }

structure Endpoint (Host : Type) where
  scheme : Str
  host : Host
  port : Nat
  deriving DecidableEq

def Written.effectivePort (w : Written) : Nat := w.port.getD (defaultPort w.scheme)

section

variable {Host : Type} [HostParser Host]

def Written.endpoint (w : Written) : Option (Endpoint Host) :=
  (HostParser.parse w.host).map (⟨w.scheme, ·, w.effectivePort⟩)

def nativeEndpoint (url : Str) : Option (Endpoint Host) := (written url).bind Written.endpoint

end

theorem hostState_no_bracket {s : Str} (plain : '[' ∉ s) :
    hostState false s =
      ((Cut.first ':' s).before, if (Cut.first ':' s).found then some (Cut.first ':' s).after else none) := by
  induction s with
  | nil => rfl
  | cons c rest ih =>
    simp only [List.mem_cons, not_or] at plain
    by_cases colon : c = ':'
    · simp [hostState, Cut.first, colon]
    · simp only [hostState, Cut.first, colon, false_and, ↓reduceIte, Ne.symm plain.1, ite_self, ih plain.2]

theorem hostState_inside {literal rest : Str} (inner : ']' ∉ literal) :
    hostState true (literal ++ ']' :: rest) =
      (literal ++ ']' :: (hostState false rest).1, (hostState false rest).2) := by
  induction literal with
  | nil => simp [hostState]
  | cons c literal ih =>
    simp only [List.mem_cons, not_or] at inner
    simp only [List.cons_append, hostState, Bool.true_eq_false, and_false, ↓reduceIte, Ne.symm inner.1, ite_self,
      ih inner.2]

theorem hostState_unclosed {s : Str} (isOpen : ']' ∉ s) : hostState true s = (s, none) := by
  induction s with
  | nil => rfl
  | cons c rest ih =>
    simp only [List.mem_cons, not_or] at isOpen
    simp only [hostState, Bool.true_eq_false, and_false, ↓reduceIte, Ne.symm isOpen.1, ite_self, ih isOpen.2]

end Cronet.Url
