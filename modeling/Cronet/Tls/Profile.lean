import Mathlib.Data.List.Dedup
import Mathlib.Algebra.Ring.Int.Defs

namespace Cronet.Tls

/-- What travels as JSON; a `double` is a number that is written with a fraction or an exponent. -/
inductive Json where
  | null
  | int (n : Int)
  | double (text : String)
  | string (s : String)
  | bool (b : Bool)
  | list (elements : List Json)
  | dict (entries : List (String × Json))

inductive ProfileError where
  | version (name value : String)
  | alpn (unknown : List String)
  | unorderable (extensions : List Int)
  | repeated
  deriving DecidableEq

def UNORDERABLE_EXTENSIONS : List Int := [21, 41]

def VERSIONS : List String := ["1.2", "1.3"]

def ALPN_PROTOCOLS : List String := ["h2", "http/1.1", "h3"]

/-- `TlsProfile`, of whatever its constructor is given. -/
structure TlsProfile where
  cipherSuites : List Int
  extensionOrder : List Int
  supportedGroups : List Int
  keyShareGroups : List Int
  signatureAlgorithms : List Int
  alpn : List String
  minVersion : Option String
  maxVersion : Option String
  grease : Option Bool
  permuteExtensions : Option Bool
  deriving DecidableEq

namespace TlsProfile

def empty : TlsProfile := ⟨[], [], [], [], [], [], none, none, none, none⟩

def checkVersion (name : String) (value : Option String) : Except ProfileError Unit :=
  match value with
  | none => .ok ()
  | some value => if value ∈ VERSIONS then .ok () else .error (.version name value)

def postInit (p : TlsProfile) : Except ProfileError Unit := do
  checkVersion "min_version" p.minVersion
  checkVersion "max_version" p.maxVersion
  let unknown := p.alpn.filter (· ∉ ALPN_PROTOCOLS)
  if unknown ≠ [] then .error (.alpn unknown)
  let unorderable := p.extensionOrder.filter (· ∈ UNORDERABLE_EXTENSIONS)
  if unorderable ≠ [] then .error (.unorderable unorderable)
  if p.extensionOrder.dedup.length ≠ p.extensionOrder.length then .error .repeated

def codePoints (points : List Int) : Option Json := if points = [] then none else some (.list (points.map .int))

/-- What `permute_extensions` is sent as: an explicit order asks for no shuffle. -/
def permute (p : TlsProfile) : Option Bool :=
  if p.permuteExtensions = none ∧ p.extensionOrder ≠ [] then some false else p.permuteExtensions

def members (p : TlsProfile) : List (String × Option Json) :=
  [("cipher_suites", codePoints p.cipherSuites), ("extension_order", codePoints p.extensionOrder),
    ("supported_groups", codePoints p.supportedGroups), ("key_share_groups", codePoints p.keyShareGroups),
    ("signature_algorithms", codePoints p.signatureAlgorithms),
    ("alpn", if p.alpn = [] then none else some (.list (p.alpn.map .string))),
    ("min_version", p.minVersion.map .string), ("max_version", p.maxVersion.map .string),
    ("grease", p.grease.map .bool), ("permute_extensions", p.permute.map .bool)]

/-- The members that are there, in the order `to_options` puts them in. -/
def profile (p : TlsProfile) : List (String × Json) := p.members.filterMap fun m => m.2.map (m.1, ·)

def toOptions (p : TlsProfile) : List (String × Json) :=
  if p.profile = [] then [] else [("tls_profile", .dict p.profile)]

end TlsProfile

def AcceptedProfile : Type := { p : TlsProfile // p.postInit = .ok () }

structure Stack where
  getIfInt : Int → Option Int
  int32 : ∀ n, -2 ^ 31 ≤ n → n < 2 ^ 31 → getIfInt n = some n
  wider : ∀ n, n < -2 ^ 31 ∨ 2 ^ 31 ≤ n → getIfInt n = none
  NextProto : Type
  nextProtoFromString : String → Option NextProto
  nextProtoToString : NextProto → String
  known : ∀ s ∈ ALPN_PROTOCOLS, ∃ proto, nextProtoFromString s = some proto ∧ nextProtoToString proto = s
  extensions : List Nat

def SSL_PROTOCOL_VERSION_TLS1_2 : Nat := 0x0303
def SSL_PROTOCOL_VERSION_TLS1_3 : Nat := 0x0304

/-- `net::TlsProfile`: what is empty or unset keeps Chromium's own. -/
structure NetTlsProfile (NextProto : Type) where
  cipherSuites : List Nat
  extensionOrder : List Nat
  supportedGroups : List Nat
  keyShareGroups : List Nat
  signatureAlgorithms : List Nat
  alpn : List NextProto
  minVersion : Option Nat
  maxVersion : Option Nat
  grease : Option Bool
  permuteExtensions : Option Bool
  deriving DecidableEq

def NetTlsProfile.default (NextProto : Type) : NetTlsProfile NextProto :=
  ⟨[], [], [], [], [], [], none, none, none, none⟩

namespace Stack

variable (stack : Stack)

def parseCodePoint : Json → Option Nat
  | .int n => (stack.getIfInt n).bind fun n => if n < 0 ∨ 0xffff < n then none else some n.toNat
  | _ => none

/-- `none` where the profile is refused; a member that is no list is one that is missing. -/
def parseTlsCodePointList (args : List (String × Json)) (key : String) : Option (List Nat) :=
  match args.lookup key with
  | some (.list elements) => elements.mapM stack.parseCodePoint
  | _ => some []

def parseTlsVersion (args : List (String × Json)) (key : String) : Option (Option Nat) :=
  match args.lookup key with
  | some (.string version) =>
    if version = "1.2" then some (some SSL_PROTOCOL_VERSION_TLS1_2)
    else if version = "1.3" then some (some SSL_PROTOCOL_VERSION_TLS1_3)
    else none
  | _ => some none

def parseTlsBool (args : List (String × Json)) (key : String) : Option (Option Bool) :=
  match args.lookup key with
  | none => some none
  | some (.bool b) => some (some b)
  | some _ => none

def parseProto : Json → Option stack.NextProto
  | .string s => stack.nextProtoFromString s
  | _ => none

def parseAlpn (args : List (String × Json)) : Option (List stack.NextProto) :=
  match args.lookup "alpn" with
  | some (.list elements) => elements.mapM stack.parseProto
  | _ => some []

/-- `SSL_extension_order_supported`. -/
def extensionOrderSupported (extension : Nat) : Bool := extension ∈ stack.extensions

def removeUnorderableExtensions (order : List Nat) : List Nat := order.filter stack.extensionOrderSupported

def parseTlsProfile (args : List (String × Json)) : Option (NetTlsProfile stack.NextProto) := do
  let cipherSuites ← stack.parseTlsCodePointList args "cipher_suites"
  let extensionOrder ← stack.parseTlsCodePointList args "extension_order"
  let supportedGroups ← stack.parseTlsCodePointList args "supported_groups"
  let keyShareGroups ← stack.parseTlsCodePointList args "key_share_groups"
  let signatureAlgorithms ← stack.parseTlsCodePointList args "signature_algorithms"
  let minVersion ← parseTlsVersion args "min_version"
  let maxVersion ← parseTlsVersion args "max_version"
  let alpn ← stack.parseAlpn args
  let grease ← parseTlsBool args "grease"
  let permuteExtensions ← parseTlsBool args "permute_extensions"
  return {
    cipherSuites, extensionOrder := stack.removeUnorderableExtensions extensionOrder, supportedGroups, keyShareGroups
    signatureAlgorithms, alpn, minVersion, maxVersion, grease, permuteExtensions }

/-- `SetContextBuilderExperimentalOptions`: an option that is refused is removed, and then the
    context is built with no profile at all. -/
def configured (options : List (String × Json)) : Option (NetTlsProfile stack.NextProto) :=
  match options.lookup "tls_profile" with
  | some (.dict args) => stack.parseTlsProfile args
  | _ => none

/-- The loop of `SSL_set1_extension_order`, over the indices placed so far. -/
def place : List Nat → List Nat → Option (List Nat)
  | [], placed => some placed
  | extension :: rest, placed =>
    match stack.extensions.idxOf? extension with
    | none => none
    | some index => if index ∈ placed then none else place rest (placed ++ [index])

/-- `none` where it returns zero; an order is one of the whole table, and an empty one is none. -/
def setExtensionOrder (order : List Nat) : Option (List Nat) :=
  if order = [] then some []
  else (stack.place order []).map fun placed =>
    placed ++ (List.range stack.extensions.length).filter (· ∉ placed)

end Stack

end Cronet.Tls
