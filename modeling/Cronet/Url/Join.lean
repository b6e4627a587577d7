import Cronet.Url.Split

namespace Cronet.Url

variable [Python]

def USES_RELATIVE : List Str :=
  ["", "ftp", "http", "gopher", "nntp", "imap", "wais", "file", "https", "shttp", "mms", "prospero", "rtsp", "rtsps",
    "rtspu", "sftp", "svn", "svn+ssh", "ws", "wss"].map String.toList

def USES_NETLOC : List Str :=
  ["", "ftp", "http", "gopher", "nntp", "telnet", "imap", "wais", "file", "mms", "https", "shttp", "snews", "prospero",
    "rtsp", "rtsps", "rtspu", "rsync", "svn", "svn+ssh", "sftp", "nfs", "git", "git+ssh", "ws", "wss",
    "itms-services"].map String.toList

def USES_PARAMS : List Str :=
  ["", "ftp", "hdl", "prospero", "http", "https", "shttp", "rtsp", "rtsps", "rtspu", "sip", "sips", "mms", "sftp",
    "tel"].map String.toList

def unsplit (parts : SplitResult) : Str :=
  let url := match parts.netloc with
    | some netloc =>
      "//".toList ++ netloc ++
        (if parts.path ≠ [] ∧ parts.path.head? ≠ some '/' then '/' :: parts.path else parts.path)
    | none => if parts.path.take 2 = "//".toList then "//".toList ++ parts.path else parts.path
  let url := match parts.scheme with
    | some scheme => if scheme = [] then url else scheme ++ ':' :: url
    | none => url
  url ++ (parts.query.elim [] ('?' :: ·)) ++ (parts.fragment.elim [] ('#' :: ·))

/-- `urlunsplit` of a result whose components are empty where the delimiter was missing. -/
def urlunsplit (parts : SplitResult) : Str :=
  let scheme := parts.scheme.getD []
  let netloc := parts.netloc.getD []
  let nonempty (s : Option Str) : Option Str := if s.getD [] = [] then none else s
  unsplit {
    scheme := nonempty parts.scheme
    netloc :=
      if netloc ≠ [] then some netloc
      else if scheme ≠ [] ∧ scheme ∈ USES_NETLOC ∧ (parts.path = [] ∨ parts.path.head? = some '/') then some []
      else none
    path := parts.path
    query := nonempty parts.query
    fragment := nonempty parts.fragment }

def splitParams (url : Str) : Str × Option Str :=
  let slash := Cut.last '/' url
  let semicolon := Cut.first ';' slash.after
  if semicolon.found then
    (slash.before ++ (if slash.found then ['/'] else []) ++ semicolon.before, some semicolon.after)
  else (url, none)

def urlparse (url : Str) : Except ValueError (SplitResult × Option Str) := do
  let parts ← urlsplit url
  if parts.scheme.getD [] ∈ USES_PARAMS ∧ ';' ∈ parts.path then
    let (path, params) := splitParams parts.path
    return ({ parts with path }, params)
  else return (parts, none)

def unparse (parts : SplitResult) (params : Option Str) : Str :=
  unsplit { parts with path := parts.path ++ params.elim [] (';' :: ·) }

def resolveSegments (segments : List Str) : List Str :=
  segments.foldl (fun resolved seg =>
    if seg = "..".toList then resolved.dropLast else if seg = ".".toList then resolved else resolved ++ [seg]) []

def withoutRedundantSlashes : List Str → List Str
  | [] => []
  | [only] => [only]
  | first :: rest => first :: (rest.dropLast.filter (· ≠ []) ++ [rest.getLastD []])

def joinPath (base path : Str) : Str :=
  let baseParts := base.splitOn '/'
  let baseParts := if baseParts.getLastD [] ≠ [] then baseParts.dropLast else baseParts
  let segments :=
    if path.head? = some '/' then path.splitOn '/' else withoutRedundantSlashes (baseParts ++ path.splitOn '/')
  let resolved := resolveSegments segments
  let resolved :=
    if segments.getLastD [] ∈ [".".toList, "..".toList] then resolved ++ [[]] else resolved
  let joined := ['/'].intercalate resolved
  if joined = [] then ['/'] else joined

def urljoin (base url : Str) : Except ValueError Str :=
  if base = [] then .ok url
  else if url = [] then .ok base
  else do
    let (b, bparams) ← urlparse base
    let (u, params) ← urlparse url
    let scheme := u.scheme <|> b.scheme
    let u := { u with scheme }
    if scheme ≠ b.scheme ∨ (scheme.getD [] ≠ [] ∧ scheme.getD [] ∉ USES_RELATIVE) then return url
    else
      let relative := scheme.getD [] = [] ∨ scheme.getD [] ∈ USES_NETLOC
      if relative ∧ u.netloc.getD [] ≠ [] then return unparse u params
      else
        let netloc := if relative then b.netloc else u.netloc
        if u.path = [] ∧ params = none then
          return unparse { u with
            netloc, path := b.path, query := u.query <|> b.query
            fragment := if u.query = none then u.fragment <|> b.fragment else u.fragment } bparams
        else return unparse { u with netloc, path := joinPath b.path u.path } params

end Cronet.Url
