import Cronet.Request.Redirect
import Cronet.Request.Utf8
import Cronet.Url.Readable
import Cronet.Url.Rewriting

namespace Cronet.Request

open Cronet.Native (Bytes)
open Cronet.Url (Str SplitResult urlsplit urlunsplit components Clean)

def hexValue (c : Char) : Option Nat :=
  if c.isDigit then some (c.toNat - '0'.toNat)
  else if 'a' ≤ c ∧ c ≤ 'f' then some (c.toNat - 'a'.toNat + 10)
  else if 'A' ≤ c ∧ c ≤ 'F' then some (c.toNat - 'A'.toNat + 10)
  else none

/-- `unquote_to_bytes`: a percent sign that two hexadecimal digits do not follow stands for itself. -/
def unquoteToBytes : Str → Bytes
  | [] => []
  | c :: a :: b :: rest =>
    match if c = '%' then (hexValue a, hexValue b) else (none, none) with
    | (some high, some low) => UInt8.ofNat (16 * high + low) :: unquoteToBytes rest
    | _ => String.utf8EncodeChar c ++ unquoteToBytes (a :: b :: rest)
  | c :: rest => String.utf8EncodeChar c ++ unquoteToBytes rest

def plusToSpace (s : Str) : Str := s.map fun c => if c = '+' then ' ' else c

/-- The names and values of a query as they were percent-encoded; a piece without its sign has an empty value. -/
def bytePairs (query : Str) : List (Bytes × Bytes) :=
  ((query.splitOn '&').filter (· ≠ [])).map fun piece =>
    let cut := Cut.first '=' piece
    (unquoteToBytes (plusToSpace cut.before), unquoteToBytes (plusToSpace cut.after))

/-- `parse_qsl` with blank values kept, over what decodes bytes. -/
def parseQsl (decode : Bytes → Str) (query : Str) : List (Str × Str) :=
  (bytePairs query).map (Prod.map decode decode)

def encoded (pairs : List (Str × Str)) : List (Bytes × Bytes) := pairs.map (Prod.map utf8 utf8)

/-- How `quote` writes a byte. -/
def percentByte (b : UInt8) : Str :=
  let c := Char.ofNat b.toNat
  if b.toNat < 128 ∧ (c.isAlphanum ∨ c ∈ "_.-~".toList) then [c]
  else ['%', hexDigit (b.toNat / 16), hexDigit (b.toNat % 16)]

/-- How `quote_plus` writes a byte. -/
def quoteByte (b : UInt8) : Str :=
  let c := Char.ofNat b.toNat
  if c = ' ' then ['+']
  else if b.toNat < 128 ∧ (c.isAlphanum ∨ c ∈ "_.-~".toList) then [c]
  else ['%', hexDigit (b.toNat / 16), hexDigit (b.toNat % 16)]

theorem quoteByte_eq (b : UInt8) : quoteByte b = if Char.ofNat b.toNat = ' ' then ['+'] else percentByte b := rfl

theorem quotePlus_eq (s : Str) : quotePlus s = (utf8 s).flatMap quoteByte := rfl

theorem hexDigit_spec : ∀ n < 16, hexValue (hexDigit n) = some n ∧ (hexDigit n).isAlphanum = true := by
  decide

theorem mem_percentByte {b : UInt8} {c : Char} (member : c ∈ percentByte b) :
    c.isAlphanum = true ∨ c ∈ "_.-~%".toList := by
  have high := (hexDigit_spec (b.toNat / 16) (by have := b.toNat_lt; omega)).2
  have low := (hexDigit_spec (b.toNat % 16) (Nat.mod_lt _ (by decide))).2
  unfold percentByte at member
  dsimp only at member
  split_ifs at member with safe
  · rw [List.mem_singleton.mp member]
    exact safe.2.imp id fun symbol => List.mem_append_left "%".toList symbol
  · simp only [List.mem_cons, List.not_mem_nil, or_false] at member
    rcases member with rfl | rfl | rfl
    · decide
    · exact .inl high
    · exact .inl low

theorem unquoteToBytes_cons {c : Char} (plain : c ≠ '%') (rest : Str) :
    unquoteToBytes (c :: rest) = String.utf8EncodeChar c ++ unquoteToBytes rest := by
  match rest with
  | [] => rfl
  | [_] => rfl
  | _ :: _ :: _ =>
    rw [unquoteToBytes, if_neg plain]

theorem ofNat_byte (b : UInt8) : (Char.ofNat b.toNat).toNat = b.toNat := by
  have valid : b.toNat.isValidChar := .inl (Nat.lt_trans b.toNat_lt (by decide))
  rw [Char.toNat_ofNat, if_pos valid]

theorem unquoteToBytes_byte {b : UInt8} (ascii : b.toNat < 128) (plain : Char.ofNat b.toNat ≠ '%') (rest : Str) :
    unquoteToBytes (Char.ofNat b.toNat :: rest) = b :: unquoteToBytes rest := by
  rw [unquoteToBytes_cons plain, utf8EncodeChar_ascii (by rwa [ofNat_byte]), ofNat_byte, UInt8.ofNat_toNat]
  rfl

theorem unquoteToBytes_percentByte (b : UInt8) (rest : Str) :
    unquoteToBytes (percentByte b ++ rest) = b :: unquoteToBytes rest := by
  unfold percentByte
  dsimp only
  split_ifs with safe
  · have plain : Char.ofNat b.toNat ≠ '%' := by
      intro same
      rw [same] at safe
      exact absurd safe.2 (by decide)
    exact unquoteToBytes_byte safe.1 plain rest
  · have high := (hexDigit_spec (b.toNat / 16) (by have := b.toNat_lt; omega)).1
    have low := (hexDigit_spec (b.toNat % 16) (Nat.mod_lt _ (by decide))).1
    simp only [List.cons_append, List.nil_append]
    rw [unquoteToBytes, if_pos rfl, high, low]
    dsimp only
    rw [Nat.div_add_mod, UInt8.ofNat_toNat]

theorem unquoteToBytes_quoteByte (b : UInt8) (rest : Str) :
    unquoteToBytes (plusToSpace (quoteByte b) ++ rest) = b :: unquoteToBytes rest := by
  rw [quoteByte_eq]
  split_ifs with space
  · have code := ofNat_byte b
    rw [space] at code
    have read := unquoteToBytes_byte (b := b) (by rw [← code]; decide) (by rw [space]; decide) rest
    rw [space] at read
    exact read
  · have kept : plusToSpace (percentByte b) = percentByte b := by
      refine (List.map_congr_left fun c member => if_neg ?_).trans (List.map_id _)
      rintro rfl
      exact absurd (mem_percentByte member) (by decide)
    rw [kept, unquoteToBytes_percentByte]

theorem unquoteToBytes_quotePlus (s : Str) : unquoteToBytes (plusToSpace (quotePlus s)) = utf8 s := by
  rw [quotePlus_eq]
  induction utf8 s with
  | nil => rfl
  | cons b bytes ih =>
    rw [List.flatMap_cons, plusToSpace, List.map_append]
    exact (unquoteToBytes_quoteByte b _).trans (congrArg (b :: ·) ih)

theorem mem_quotePlus {s : Str} {c : Char} (member : c ∈ quotePlus s) : c.isAlphanum ∨ c ∈ "_.-~+%".toList := by
  rw [quotePlus_eq, List.mem_flatMap] at member
  obtain ⟨b, _, there⟩ := member
  rw [quoteByte_eq] at there
  split_ifs at there with space
  · rw [List.mem_singleton.mp there]
    decide
  · have within : "_.-~%".toList ⊆ "_.-~+%".toList := by decide
    exact (mem_percentByte there).imp id fun symbol => within symbol

theorem not_mem_quotePlus {s : Str} {c : Char} (plain : c.isAlphanum = false ∧ c ∉ "_.-~+%".toList) : c ∉ quotePlus s := by
  intro member
  rcases mem_quotePlus member with letter | symbol
  · rw [plain.1] at letter
    cases letter
  · exact plain.2 symbol

def quotedPair (p : Str × Str) : Str := quotePlus p.1 ++ '=' :: quotePlus p.2

theorem urlencode_eq (pairs : List (Str × Str)) : urlencode pairs = ['&'].intercalate (pairs.map quotedPair) := rfl

theorem mem_quotedPair {p : Str × Str} {c : Char} (member : c ∈ quotedPair p) : c ∈ quotePlus p.1 ∨ c = '=' ∨ c ∈ quotePlus p.2 := by
  rcases List.mem_append.mp member with name | value
  · exact .inl name
  · exact .inr (List.mem_cons.mp value)

theorem mem_urlencode {pairs : List (Str × Str)} {c : Char} (member : c ∈ urlencode pairs) :
    c = '&' ∨ ∃ p ∈ pairs, c ∈ quotedPair p := by
  rw [urlencode_eq] at member
  induction pairs with
  | nil => cases member
  | cons p pairs ih =>
    cases pairs with
    | nil => exact .inr ⟨p, List.mem_singleton_self p, by simpa using member⟩
    | cons q pairs =>
      rw [List.map_cons, List.map_cons, List.intercalate_cons_cons] at member
      rcases List.mem_append.mp member with first | behind
      · rcases List.mem_append.mp first with inside | separator
        · exact .inr ⟨p, List.mem_cons_self, inside⟩
        · exact .inl (List.mem_singleton.mp separator)
      · refine (ih behind).imp id ?_
        rintro ⟨r, there, inside⟩
        exact ⟨r, List.mem_cons_of_mem p there, inside⟩

theorem urlencode_plain (pairs : List (Str × Str)) : Clean (urlencode pairs) ∧ '#' ∉ urlencode pairs := by
  have all {c : Char} (member : c ∈ urlencode pairs) : c.isAlphanum ∨ c ∈ "_.-~+%=&".toList := by
    rcases mem_urlencode member with rfl | ⟨p, _, inside⟩
    · decide
    · rcases mem_quotedPair inside with name | rfl | value
      · exact (mem_quotePlus name).imp id fun symbol => List.mem_append_left "=&".toList symbol
      · decide
      · exact (mem_quotePlus value).imp id fun symbol => List.mem_append_left "=&".toList symbol
  constructor
  · intro c member
    by_contra taken
    rw [Bool.not_eq_false] at taken
    simp only [Url.isUnsafe, decide_eq_true_eq, List.mem_cons, List.not_mem_nil, or_false] at taken
    rcases taken with rfl | rfl | rfl <;> exact absurd (all member) (by decide)
  · exact fun member => absurd (all member) (by decide)

theorem urlencode_ne_nil {pairs : List (Str × Str)} (given : pairs ≠ []) : urlencode pairs ≠ [] := by
  cases pairs with
  | nil => exact absurd rfl given
  | cons p pairs =>
    rw [urlencode_eq]
    cases pairs with
    | nil => simp [quotedPair]
    | cons q pairs => simp [quotedPair, List.intercalate_cons_cons]

theorem bytePairs_urlencode {pairs : List (Str × Str)} (given : pairs ≠ []) :
    bytePairs (urlencode pairs) = encoded pairs := by
  have noSeparator : ∀ piece ∈ pairs.map quotedPair, '&' ∉ piece := by
    intro piece listed member
    obtain ⟨p, _, rfl⟩ := List.mem_map.mp listed
    rcases mem_quotedPair member with name | sign | value
    · exact not_mem_quotePlus (by decide) name
    · cases sign
    · exact not_mem_quotePlus (by decide) value
  have nonempty : ∀ piece ∈ pairs.map quotedPair, decide (piece ≠ []) = true := by
    intro piece listed
    obtain ⟨p, _, rfl⟩ := List.mem_map.mp listed
    simp [quotedPair]
  rw [bytePairs, urlencode_eq, List.splitOn_intercalate '&' noSeparator (by simpa using given),
    List.filter_eq_self.mpr nonempty, List.map_map, encoded]
  refine List.map_congr_left fun p _ => ?_
  have sign : '=' ∉ quotePlus p.1 := not_mem_quotePlus (by decide)
  simp only [Function.comp_apply, quotedPair, Cut.first_append sign, unquoteToBytes_quotePlus]
  rfl

section

variable [Library]

structure QueryJoined (url : Str) (params : List (Str × Str)) (result : Str) : Prop where
  read : urlsplit url = .ok (components url) ∧ urlsplit result = .ok (components result)
  scheme : (components result).scheme.getD [] = (components url).scheme.getD []
  netloc : (components result).netloc.getD [] = (components url).netloc.getD []
  path : (components result).path = (components url).path
  fragment : (components result).fragment.getD [] = (components url).fragment.getD []
  pairs : bytePairs ((components result).query.getD []) = bytePairs ((components url).query.getD []) ++ encoded params

def IsText (bytes : Bytes) : Prop := ∃ s, bytes = utf8 s

theorem checkedUrl_ok {url accepted : Str} (checked : checkedUrl url = .ok accepted) :
    Url.Readable url ∧ accepted = url ∧ (components url).scheme.getD [] ∈ ["http".toList, "https".toList] ∧
      (components url).netloc.getD [] ≠ [] := by
  obtain ⟨parts, split, checked⟩ := Checked.bind_ok checked
  obtain ⟨readable, rfl⟩ := Url.urlsplit_ok.mp (mapError_ok split)
  dsimp only at checked
  split_ifs at checked with schemed web named
  cases checked
  refine ⟨readable, rfl, web, fun empty => named ?_⟩
  rw [SplitResult.hostname, SplitResult.hostinfo, empty]
  rfl

def nonempty (s : Option Str) : Option Str := if s.getD [] = [] then none else s

omit [Library] in
theorem nonempty_getD (s : Option Str) : (nonempty s).getD [] = s.getD [] := by
  unfold nonempty
  split
  · rename_i empty
    exact empty.symm
  · rfl

omit [Library] in
theorem nonempty_some {s : Option Str} {text : Str} (kept : nonempty s = some text) : s = some text := by
  unfold nonempty at kept
  split at kept
  · cases kept
  · exact kept

theorem components_urlunsplit {url query : Str} (schemed : (components url).scheme.getD [] ≠ [])
    (named : (components url).netloc.getD [] ≠ []) (given : query ≠ []) (plain : Clean query ∧ '#' ∉ query) :
    components (urlunsplit { components url with query := some query }) =
      { components url with query := some query, fragment := nonempty (components url).fragment } := by
  have wf := Url.components_wellformed url
  cases scheme : (components url).scheme with
  | none => exact absurd (by rw [scheme]; rfl) schemed
  | some s =>
    cases netloc : (components url).netloc with
    | none => exact absurd (by rw [netloc]; rfl) named
    | some n =>
      rw [scheme, Option.getD_some] at schemed
      rw [netloc, Option.getD_some] at named
      have written : urlunsplit { components url with query := some query } =
          Url.unsplit { components url with query := some query, fragment := nonempty (components url).fragment } := by
        simp [urlunsplit, scheme, netloc, schemed, named, given, nonempty]
      have wellformed : SplitResult.Wellformed
          { components url with query := some query, fragment := nonempty (components url).fragment } := by
        refine ⟨wf.scheme, wf.netloc, wf.path, fun q same => ?_, fun f same => wf.fragment f (nonempty_some same)⟩
        cases same
        exact plain
      have someHost : (components url).netloc ≠ none := by
        rw [netloc]
        exact Option.some_ne_none n
      have rooted := Url.rooted_eq (Url.components_rooted someHost)
      rw [written, SplitResult.components_unsplit wellformed scheme netloc]
      simp only [rooted, scheme, netloc]

section

variable {decode : Bytes → Str}

omit [Library] in
theorem encoded_parseQsl (decodes : ∀ s, decode (utf8 s) = s) (query : Str) :
    encoded (parseQsl decode query) = bytePairs query ↔ ∀ p ∈ bytePairs query, IsText p.1 ∧ IsText p.2 := by
  have text (bytes : Bytes) : utf8 (decode bytes) = bytes ↔ IsText bytes := by
    constructor
    · exact fun same => ⟨decode bytes, same.symm⟩
    · rintro ⟨s, rfl⟩
      rw [decodes]
  have twice : encoded (parseQsl decode query) =
      (bytePairs query).map (Prod.map (fun b => utf8 (decode b)) fun b => utf8 (decode b)) := List.map_map
  rw [twice]
  conv_lhs =>
    rhs
    rw [← List.map_id (bytePairs query)]
  rw [List.map_inj_left]
  refine forall₂_congr fun p _ => ?_
  rw [← text, ← text]
  exact Prod.ext_iff

/-- The query of a checked URL is joined as promised exactly when it was the UTF-8 of a text. -/
theorem queryJoined_iff {url accepted : Str} {params : List (Str × Str)}
    (documented : ∀ query, Library.parseQsl query = parseQsl decode query) (decodes : ∀ s, decode (utf8 s) = s)
    (checked : checkedUrl url = .ok accepted) (given : params ≠ []) :
    ∃ result, withQuery url (some params) = .ok result ∧ (QueryJoined url params result ↔
      ∀ p ∈ bytePairs ((components url).query.getD []), IsText p.1 ∧ IsText p.2) := by
  obtain ⟨readable, _, web, named⟩ := checkedUrl_ok checked
  have schemed : (components url).scheme.getD [] ≠ [] := by
    intro empty
    rw [empty] at web
    exact absurd web (by decide)
  have split : urlsplit url = .ok (components url) := Url.urlsplit_ok.mpr ⟨readable, rfl⟩
  obtain ⟨existing, parsed⟩ : ∃ pairs, pairs = parseQsl decode ((components url).query.getD []) := ⟨_, rfl⟩
  have more : existing ++ params ≠ [] := List.append_ne_nil_of_right_ne_nil existing given
  have parts := components_urlunsplit schemed named (urlencode_ne_nil more) (urlencode_plain _)
  refine ⟨urlunsplit { components url with query := some (urlencode (existing ++ params)) }, ?_, ?_⟩
  · simp only [withQuery, Option.getD_some, given, ↓reduceIte, split, documented]
    rw [parsed]
    rfl
  · rw [← encoded_parseQsl decodes, ← parsed]
    have whole : bytePairs (urlencode (existing ++ params)) = encoded existing ++ encoded params := by
      rw [bytePairs_urlencode more, encoded, List.map_append]
      rfl
    constructor
    · intro joined
      have pairs := joined.pairs
      rw [parts, Option.getD_some, whole] at pairs
      exact List.append_cancel_right pairs
    · intro same
      have again : Url.Readable (urlunsplit { components url with query := some (urlencode (existing ++ params)) }) := by
        rw [Url.Readable, parts]
        exact readable
      exact {
        read := ⟨split, Url.urlsplit_ok.mpr ⟨again, rfl⟩⟩
        scheme := by rw [parts]
        netloc := by rw [parts]
        path := by rw [parts]
        fragment := by rw [parts, nonempty_getD]
        pairs := by rw [parts, Option.getD_some, whole, same] }

end

end

def decodeUtf8 (bytes : Bytes) : Str :=
  match String.fromUTF8? bytes.toByteArray with
  | some s => s.toList
  | none => ['\uFFFD']

theorem decodeUtf8_utf8 (s : Str) : decodeUtf8 (utf8 s) = s := by
  have valid : (utf8 s).toByteArray.IsValidUTF8 := .intro s rfl
  rw [decodeUtf8, String.fromUTF8?, dif_pos valid]
  exact String.toList_ofList

@[reducible] def decodingLibrary : Library := { asciiLibrary with parseQsl := parseQsl decodeUtf8 }

section

attribute [local instance] decodingLibrary

theorem queryJoined_plain :
    ∃ result, withQuery "https://h/p?a=%C3%A9&b#f".toList (some [("k".toList, "v".toList)]) = .ok result ∧
      QueryJoined "https://h/p?a=%C3%A9&b#f".toList [("k".toList, "v".toList)] result := by
  have checked : checkedUrl "https://h/p?a=%C3%A9&b#f".toList = .ok "https://h/p?a=%C3%A9&b#f".toList := by decide
  have given : [("k".toList, "v".toList)] ≠ [] := List.cons_ne_nil _ _
  obtain ⟨result, made, joined⟩ := queryJoined_iff (fun _ => rfl) decodeUtf8_utf8 checked given
  refine ⟨result, made, joined.mpr fun p member => ?_⟩
  have pairs : bytePairs ((components "https://h/p?a=%C3%A9&b#f".toList).query.getD []) =
      [(utf8 "a".toList, utf8 "é".toList), (utf8 "b".toList, utf8 [])] := by decide
  rw [pairs] at member
  simp only [List.mem_cons, List.not_mem_nil, or_false] at member
  rcases member with rfl | rfl <;> exact ⟨⟨_, rfl⟩, ⟨_, rfl⟩⟩

/-- A value that was not the UTF-8 of a text comes out as another one. -/
theorem query_replaced :
    checkedUrl "https://h/?a=%FF".toList = .ok "https://h/?a=%FF".toList ∧
      withQuery "https://h/?a=%FF".toList (some [("b".toList, "c".toList)]) = .ok "https://h/?a=%EF%BF%BD&b=c".toList ∧
      ¬QueryJoined "https://h/?a=%FF".toList [("b".toList, "c".toList)] "https://h/?a=%EF%BF%BD&b=c".toList := by
  refine ⟨by decide, by decide, fun joined => ?_⟩
  exact absurd joined.pairs (by decide)

end

end Cronet.Request
