import Cronet.Native.Body
import Cronet.Request.Headers
import Cronet.Session.Response
import Cronet.Url.Join

namespace Cronet.Request

open Cronet.Native (Bytes)
open Cronet.Session (CronetError)
open Cronet.Url (Str Python ValueError SplitResult urlsplit urlunsplit)

inductive Raised where
  | url (e : ValueError)
  | valueError (message : String)
  | typeError (message : String)
  | runtimeError (message : String)
  | cronet (e : CronetError)
  deriving DecidableEq

/-- The parts of the standard library, and of the JSON backend, whose tables stay outside. -/
class Library extends Python where
  Json : Type
  encodeJson : Json → Except Raised Bytes
  guessType : Str → Option Str
  parseQsl : Str → List (Str × Str)

/-- A library that knows no media type, no query and no JSON but the document itself. -/
@[reducible] def asciiLibrary : Library where
  toPython := Url.asciiPython
  Json := Bytes
  encodeJson := .ok
  guessType _ := none
  parseQsl _ := []

inductive FileContent where
  | bytes (data : Bytes)
  | text (s : Str)
  deriving DecidableEq

inductive FileSpec where
  | content (c : FileContent)
  | named (filename : Str) (c : FileContent)
  | typed (filename : Str) (c : FileContent) (mediaType : Str)
  deriving DecidableEq

variable [Library]

/-- Every option a request is built from, `none` where it is absent or None. -/
structure RequestOptions where
  headers : Option (List (Str × Str))
  query : Option (List (Str × Str))
  body : Option FileContent
  form : Option (List (Str × Str))
  files : Option (List (Str × FileSpec))
  json : Option Library.Json
  basicAuth : Option (Str × Str)
  bearerAuth : Option Str
  maxRedirects : Option Int
  priority : Option Str
  disableCache : Option Bool

def RequestOptions.empty : RequestOptions := ⟨none, none, none, none, none, none, none, none, none, none, none⟩

def PRIORITIES : List (Str × Int) :=
  [("throttled", 0), ("idle", 1), ("lowest", 2), ("low", 3), ("medium", 4), ("highest", 5)].map
    fun p => (p.1.toList, p.2)

def STACK_OWNED_HEADERS : List (Str × String) :=
  [("accept-encoding", "the session's brotli= setting decides this"),
    ("accept-language", "pass accept_language= to the session"),
    ("host", "Chromium derives this from the URL"),
    ("connection", "Chromium manages connection reuse itself"),
    ("content-length", "Chromium counts the body it is given")].map fun p => (p.1.toList, p.2)

def checkHeaders (headers : Option (List (Str × Str))) (source : String) : Except Raised Unit :=
  (headers.getD []).forM fun (name, _) =>
    match STACK_OWNED_HEADERS.lookup (Python.lower name) with
    | some instead => .error (.valueError (Python.repr name ++ " was set on " ++ source ++
        ", but Chromium sets it itself — " ++ instead ++ ". Setting it by hand moves the header to where you " ++
        "put it, which is not where Chrome sends it, so the request stops matching a browser's."))
    | none => .ok ()

def checkedUrl (url : Str) : Except Raised Str := do
  let parts ← (urlsplit url).mapError .url
  let scheme := parts.scheme.getD []
  if scheme = [] then
    .error (.typeError (Python.repr url ++ " has no scheme — did you mean 'https://" ++
      String.ofList (Cut.first '/' url).before ++ "'?"))
  else if scheme ∉ ["http".toList, "https".toList] then
    .error (.typeError (Python.repr url ++ " uses the " ++ Python.repr scheme ++
      " scheme; only http and https work"))
  else if parts.hostname = none then .error (.typeError (Python.repr url ++ " names no host"))
  else .ok url

def utf8 (s : Str) : Bytes := s.flatMap String.utf8EncodeChar

omit [Library] in
theorem utf8_eq_nil {s : Str} : utf8 s = [] ↔ s = [] := by
  cases s <;> simp [utf8, String.utf8EncodeChar_ne_nil]

def hexDigit (n : Nat) : Char := "0123456789ABCDEF".toList.getD n '0'

/-- `quote_plus` of the UTF-8 bytes: the unreserved characters stand for themselves. -/
def quotePlus (s : Str) : Str :=
  (utf8 s).flatMap fun b =>
    let c := Char.ofNat b.toNat
    if c = ' ' then ['+']
    else if b.toNat < 128 ∧ (c.isAlphanum ∨ c ∈ "_.-~".toList) then [c]
    else ['%', hexDigit (b.toNat / 16), hexDigit (b.toNat % 16)]

def urlencode (pairs : List (Str × Str)) : Str :=
  ['&'].intercalate (pairs.map fun p => quotePlus p.1 ++ '=' :: quotePlus p.2)

def withQuery (url : Str) (params : Option (List (Str × Str))) : Except Raised Str :=
  if params.getD [] = [] then .ok url
  else do
    let parts ← (urlsplit url).mapError .url
    let existing := Library.parseQsl (parts.query.getD [])
    return urlunsplit { parts with query := some (urlencode (existing ++ params.getD [])) }

/-- `_target`: the URL to request, checked and with the query applied. -/
def target (url : Str) (options : RequestOptions) : Except Raised Str := do
  checkHeaders options.headers "a request"
  let url ← checkedUrl url
  withQuery url options.query

def base64Digit (n : Nat) : Char :=
  "ABCDEFGHIJKLMNOPQRSTUVWXYZabcdefghijklmnopqrstuvwxyz0123456789+/".toList.getD n '='

def b64encode : Bytes → Str
  | [] => []
  | [a] => [base64Digit (a.toNat / 4), base64Digit (a.toNat % 4 * 16), '=', '=']
  | [a, b] =>
    [base64Digit (a.toNat / 4), base64Digit (a.toNat % 4 * 16 + b.toNat / 16), base64Digit (b.toNat % 16 * 4), '=']
  | a :: b :: c :: rest =>
    [base64Digit (a.toNat / 4), base64Digit (a.toNat % 4 * 16 + b.toNat / 16),
      base64Digit (b.toNat % 16 * 4 + c.toNat / 64), base64Digit (c.toNat % 64)] ++ b64encode rest

def authorization (options : RequestOptions) : Except Raised (Option Str) :=
  match options.basicAuth, options.bearerAuth with
  | some _, some _ => .error (.typeError "give only one of basic_auth or bearer_auth")
  | some (username, password), none =>
    .ok (some ("Basic ".toList ++ b64encode (utf8 (username ++ ':' :: password))))
  | none, some bearer => .ok (some ("Bearer ".toList ++ bearer))
  | none, none => .ok none

def quoted (s : Str) : Str :=
  s.flatMap fun c =>
    if c = '"' then "%22".toList else if c = '\r' then "%0D".toList else if c = '\n' then "%0A".toList else [c]

def disposition (name : Str) (filename : Option Str) : Str :=
  "form-data; name=\"".toList ++ quoted name ++ ['"'] ++
    filename.elim [] fun f => "; filename=\"".toList ++ quoted f ++ ['"']

def FileContent.encode : FileContent → Bytes
  | .bytes data => data
  | .text s => utf8 s

def filePart (name : Str) (spec : FileSpec) : Str × Str × Bytes :=
  let (filename, content, declared) := match spec with
    | .content c => (name, c, [])
    | .named filename c => (filename, c, [])
    | .typed filename c mediaType => (filename, c, mediaType)
  let guessed := (Library.guessType filename).getD []
  (filename,
    if declared ≠ [] then declared else if guessed ≠ [] then guessed else "application/octet-stream".toList,
    content.encode)

def encodeMultipart (fields : List (Str × Str)) (files : List (Str × FileSpec)) (boundary : Str) : Bytes :=
  (fields.flatMap fun (name, value) =>
    utf8 ("--".toList ++ boundary ++ "\r\n".toList) ++
      utf8 ("Content-Disposition: ".toList ++ disposition name none ++ "\r\n\r\n".toList) ++ utf8 value ++
      utf8 "\r\n".toList) ++
  (files.flatMap fun (name, spec) =>
    let (filename, mediaType, content) := filePart name spec
    utf8 ("--".toList ++ boundary ++ "\r\n".toList) ++
      utf8 ("Content-Disposition: ".toList ++ disposition name (some filename) ++ "\r\n".toList) ++
      utf8 ("Content-Type: ".toList ++ mediaType ++ "\r\n\r\n".toList) ++ content ++ utf8 "\r\n".toList) ++
  utf8 ("--".toList ++ boundary ++ "--\r\n".toList)

def setItem (items : List (Str × Str)) (item : Str × Str) : List (Str × Str) :=
  if item.1 ∈ items.map Prod.fst then items.map fun old => if old.1 = item.1 then item else old else items ++ [item]

/-- `dict(pairs)`: a name given again keeps its place and takes the later value. -/
def dict (pairs : List (Str × Str)) : List (Str × Str) := pairs.foldl setItem []

/-- The body and the media type it implies. The boundary is the one drawn for this call. -/
def encodeBody (options : RequestOptions) (boundary : Str) : Except Raised (Bytes × Option Str) :=
  let given := (if options.body.isSome then ["body"] else []) ++ (if options.form.isSome then ["form"] else []) ++
    (if options.json.isSome then ["json"] else [])
  if given.length > 1 then
    .error (.typeError ("give only one of body, form or json, not [" ++
      ", ".intercalate (given.map fun name => "'" ++ name ++ "'") ++ "]"))
  else if options.files.isSome ∧ given ∉ [[], ["form"]] then
    .error (.typeError ("files may be given with form, but not with " ++ given.headD "" ++
      " — a multipart body carries its fields as parts of its own"))
  else
    match options.files with
    | some files => .ok (encodeMultipart (options.form.getD []) files boundary,
        some ("multipart/form-data; boundary=".toList ++ boundary))
    | none =>
      match options.body, options.form, options.json with
      | some body, _, _ => .ok (body.encode, none)
      | none, some form, _ => .ok (utf8 (urlencode (dict form)), some "application/x-www-form-urlencoded".toList)
      | none, none, some json => do
        let encoded ← Library.encodeJson json
        return (encoded, some "application/json".toList)
      | none, none, none => .ok ([], none)

end Cronet.Request
