import Cronet.Request.Query

namespace Cronet.Request

open Cronet.Native (Bytes)
open Cronet.Url (Str Python SplitResult isascii isUnsafe isNetlocEnd)

/-- What `url::ParseAuthority` finds; a host of no length is not there. -/
structure Authority where
  username : Option Str
  password : Option Str
  hostname : Str
  port : Option Str

/-- `ProxyServer::Scheme`, as far as it names servers. -/
inductive ProxyScheme where
  | http
  | https
  | socks4
  | socks5
  deriving DecidableEq

structure ProxyServer (Host : Type) where
  scheme : ProxyScheme
  host : Host
  port : Nat
  username : Str
  password : Str

/-- What reading proxy rules rests on: `url::ParseAuthority`, `ProxyServer::FromSchemeHostAndPort`, what the bytes of
    a percent-decoded text are decoded to, and the one proxy that rules which name a single one come to. -/
structure ProxyParser (Host : Type) where
  parseAuthority : Str → Authority
  fromSchemeHostAndPort : ProxyScheme → Str → Option Str → Option (Host × Nat)
  decode : Bytes → Str
  singleProxy : Str → Option (ProxyServer Host)

namespace ProxyParser

variable {Host : Type} (p : ProxyParser Host)

/-- The lambda `decode`, of a component that may be missing. -/
def decoded (component : Option Str) : Str :=
  if component.getD [] = [] then [] else p.decode (unquoteToBytes (component.getD []))

def proxySchemeHostAndPortToProxyServer (scheme : ProxyScheme) (hostAndPort : Str) : Option (ProxyServer Host) :=
  let authority := p.parseAuthority hostAndPort
  let hasUserinfo := authority.username.isSome || authority.password.isSome
  let credentialsAllowed : Bool := scheme = .socks5
  if (hasUserinfo && !credentialsAllowed) || authority.hostname = [] then none
  else
    (p.fromSchemeHostAndPort scheme authority.hostname authority.port).map fun (host, port) =>
      if hasUserinfo then ⟨scheme, host, port, p.decoded authority.username, p.decoded authority.password⟩
      else ⟨scheme, host, port, [], []⟩

end ProxyParser

/-- What a host name is written with: no control character and no blank, no delimiter of a URL and none of a list of
    proxies. -/
def isNameChar (c : Char) : Bool := 0x20 < c.toNat && c.toNat ≠ 0x7F && c ∉ "@:[]/?#\\;=,".toList

def isLiteralChar (c : Char) : Bool := c.isDigit || c ∈ "abcdefABCDEF:.".toList

def isRuleChar (c : Char) : Bool := isNameChar c || c ∈ ":@[]".toList

theorem nameChar_alphanum {c : Char} (letter : c.isAlphanum = true) : isNameChar c = true :=
  Ascii.forall_lt (P := fun d => d.isAlphanum = true → isNameChar d = true) (by decide +kernel) (Ascii.alphanum_lt letter)
    letter

theorem nameChar_wide {c : Char} (wide : 128 ≤ c.toNat) : isNameChar c = true := by
  have symbol : c ∉ "@:[]/?#\\;=,".toList := by
    have ascii : "@:[]/?#\\;=,".toList.all (·.toNat < 128) = true := by decide
    intro member
    have small := of_decide_eq_true (List.all_eq_true.mp ascii c member)
    omega
  have visible : 0x20 < c.toNat ∧ c.toNat ≠ 0x7F := by omega
  simp only [isNameChar, Bool.and_eq_true, decide_eq_true_eq]
  exact ⟨visible, symbol⟩

theorem ruleChar_spec {c : Char} (rule : isRuleChar c = true) : isUnsafe c = false ∧ isNetlocEnd c = false := by
  have refused : ['\t', '\r', '\n', '/', '?', '#'].all (!isRuleChar ·) = true := by decide
  have absent : c ∉ ['\t', '\r', '\n', '/', '?', '#'] := by
    intro member
    have other := List.all_eq_true.mp refused c member
    rw [rule] at other
    cases other
  constructor
  · exact decide_eq_false fun member => absent (List.mem_append_left ['/', '?', '#'] member)
  · exact decide_eq_false fun member => absent (List.mem_append_right ['\t', '\r', '\n'] member)

theorem digit_plain {c : Char} (digit : c.isDigit = true) : isRuleChar c = true ∧ c ∉ "@:[]".toList := by
  have ascii : c.toNat < 128 := Ascii.alphanum_lt (by rw [Char.isAlphanum, digit, Bool.or_true])
  exact Ascii.forall_lt (P := fun d => d.isDigit = true → isRuleChar d = true ∧ d ∉ "@:[]".toList)
    (by decide +kernel) ascii digit

theorem nameChar_plain {c : Char} (plain : isNameChar c = true) : isRuleChar c = true ∧ c ∉ "@:[]".toList := by
  refine ⟨by rw [isRuleChar, plain, Bool.true_or], fun delimiter => ?_⟩
  have among : "@:[]".toList ⊆ "@:[]/?#\\;=,".toList := by decide
  simp only [isNameChar, Bool.and_eq_true, decide_eq_true_eq] at plain
  exact plain.2 (among delimiter)

theorem literalChar_lt {c : Char} (inside : isLiteralChar c = true) : c.toNat < 128 := by
  rcases Bool.or_eq_true_iff.mp inside with digit | symbol
  · exact Ascii.alphanum_lt (by rw [Char.isAlphanum, digit, Bool.or_true])
  · have each : "abcdefABCDEF:.".toList.all (·.toNat < 128) = true := by decide
    exact of_decide_eq_true (List.all_eq_true.mp each c (of_decide_eq_true symbol))

theorem literalChar_plain {c : Char} (inside : isLiteralChar c = true) :
    isRuleChar c = true ∧ c ∉ "@[]".toList ∧ c ≠ 'v' ∧ c ≠ '%' :=
  Ascii.forall_lt
    (P := fun d => isLiteralChar d = true → isRuleChar d = true ∧ d ∉ "@[]".toList ∧ d ≠ 'v' ∧ d ≠ '%')
    (by decide +kernel) (literalChar_lt inside) inside

/-- A host name, an IPv4 address among them, or an IPv6 literal, which is written in brackets. -/
inductive ProxyHost [Python] where
  | name (text : Str) (nonempty : text ≠ []) (chars : ∀ c ∈ text, isNameChar c = true)
  | literal (text : Str) (colon : ':' ∈ text) (chars : ∀ c ∈ text, isLiteralChar c = true)
      (address : Python.isIPv6Address text = true)

def colonPort : Option Str → Str
  | none => []
  | some port => ':' :: port

structure ProxyPort where
  digits : Str
  nonempty : digits ≠ []
  decimal : ∀ c ∈ digits, c.isDigit = true
  range : SplitResult.decimal digits ≤ 65535

variable [Python]

def ProxyHost.text : ProxyHost → Str
  | name text _ _ => text
  | literal text _ _ _ => '[' :: (text ++ [']'])

/-- The URL of a single SOCKS5 proxy, without userinfo: `socks5://host` or `socks5://host:port`. -/
structure ProxyUrl where
  scheme : Str
  socks5 : scheme.map Char.toLower = "socks5".toList
  host : ProxyHost
  port : Option ProxyPort

namespace ProxyUrl

def authority (u : ProxyUrl) : Str := u.host.text ++ colonPort (u.port.map ProxyPort.digits)

def text (u : ProxyUrl) : Str := u.scheme ++ ("://".toList ++ u.authority)

end ProxyUrl

/-- The parts of Chromium as documented: userinfo ends at the last `@` and its name at the first colon, a port stands
    behind the last colon, letters of a host count in either case, and a port is its number, 1080 where there is none. -/
structure ProxyParser.Documented {Host : Type} (p : ProxyParser Host) : Prop where
  single : ∀ scheme rest : Str, scheme.map Char.toLower = "socks5".toList → (∀ c ∈ rest, isRuleChar c = true) →
    p.singleProxy (scheme ++ ("://".toList ++ rest)) = p.proxySchemeHostAndPortToProxyServer .socks5 rest
  userinfo : ∀ info server : Str, '@' ∉ server → server ≠ [] →
    p.parseAuthority (info ++ '@' :: server) = { p.parseAuthority server with
      username := some (Cut.first ':' info).before
      password := if (Cut.first ':' info).found then some (Cut.first ':' info).after else none }
  name : ∀ host : Str, (∀ c ∈ host, c ∉ "@:[]".toList) → p.parseAuthority host = ⟨none, none, host, none⟩
  ported : ∀ host port : Str, (∀ c ∈ host, c ∉ "@[]".toList) → (∀ c ∈ port, c ∉ "@:[]".toList) →
    p.parseAuthority (host ++ ':' :: port) = ⟨none, none, host, some port⟩
  literal : ∀ (text : Str) (port : Option Str), (∀ c ∈ text, c ∉ "@[]".toList) →
    (∀ digits ∈ port, ∀ c ∈ digits, c ∉ "@:[]".toList) →
    p.parseAuthority ('[' :: (text ++ ']' :: colonPort port)) = ⟨none, none, '[' :: (text ++ [']']), port⟩
  asciiCase : ∀ (host : Str) (port : Option Str), isascii host = true →
    p.fromSchemeHostAndPort .socks5 (host.map Char.toLower) port = p.fromSchemeHostAndPort .socks5 host port
  numeric : ∀ (host : Str) (port : ProxyPort), SplitResult.decimal port.digits ≠ 0 →
    p.fromSchemeHostAndPort .socks5 host (some port.digits) =
      (p.fromSchemeHostAndPort .socks5 host none).map fun server => (server.1, SplitResult.decimal port.digits)
  zero : ∀ (host : Str) (port : ProxyPort) (server : Host × Nat), SplitResult.decimal port.digits = 0 →
    p.fromSchemeHostAndPort .socks5 host (some port.digits) = some server → server.2 = 0
  unported : ∀ (host : Str) (server : Host × Nat), p.fromSchemeHostAndPort .socks5 host none = some server →
    server.2 = 1080
  decodes : ∀ s : Str, p.decode (utf8 s) = s

theorem ProxyHost.text_plain (host : ProxyHost) : ∀ c ∈ host.text, isRuleChar c = true ∧ c ≠ '@' := by
  intro c member
  cases host with
  | name text nonempty chars =>
    obtain ⟨rule, plain⟩ := nameChar_plain (chars c member)
    refine ⟨rule, ?_⟩
    rintro rfl
    exact plain (by decide)
  | literal text colon chars address =>
    simp only [ProxyHost.text, List.mem_cons, List.mem_append, List.not_mem_nil, or_false] at member
    rcases member with rfl | inside | rfl
    · decide
    · obtain ⟨rule, plain, _⟩ := literalChar_plain (chars c inside)
      refine ⟨rule, ?_⟩
      rintro rfl
      exact plain (by decide)
    · decide

theorem ProxyHost.text_ne_nil (host : ProxyHost) : host.text ≠ [] := by
  cases host with
  | name text nonempty chars => exact nonempty
  | literal text colon chars address => exact List.cons_ne_nil _ _

omit [Python] in
theorem colonPort_plain {port : Option ProxyPort} :
    ∀ c ∈ colonPort (port.map ProxyPort.digits), isRuleChar c = true ∧ c ∉ "@[]".toList := by
  intro c member
  cases port with
  | none => cases member
  | some port =>
    have within : "@[]".toList ⊆ "@:[]".toList := by decide
    rcases List.mem_cons.mp member with rfl | digit
    · decide
    · obtain ⟨rule, plain⟩ := digit_plain (port.decimal c digit)
      exact ⟨rule, fun delimiter => plain (within delimiter)⟩

theorem ProxyUrl.authority_plain (u : ProxyUrl) : ∀ c ∈ u.authority, isRuleChar c = true ∧ c ≠ '@' := by
  intro c member
  rcases List.mem_append.mp member with host | port
  · exact u.host.text_plain c host
  · obtain ⟨rule, plain⟩ := colonPort_plain c port
    refine ⟨rule, ?_⟩
    rintro rfl
    exact plain (by decide)

namespace ProxyParser.Documented

variable {Host : Type} {p : ProxyParser Host} (documented : p.Documented)
include documented

theorem parseAuthority_url (u : ProxyUrl) :
    p.parseAuthority u.authority = ⟨none, none, u.host.text, u.port.map ProxyPort.digits⟩ := by
  have digits : ∀ written ∈ u.port.map ProxyPort.digits, ∀ c ∈ written, c ∉ "@:[]".toList := by
    intro written given c member
    obtain ⟨port, _, rfl⟩ := Option.mem_map.mp given
    exact (digit_plain (port.decimal c member)).2
  unfold ProxyUrl.authority
  cases host : u.host with
  | literal text colon chars address =>
    have inside : ∀ c ∈ text, c ∉ "@[]".toList := fun c member => (literalChar_plain (chars c member)).2.1
    rw [ProxyHost.text, List.cons_append, List.append_assoc, List.singleton_append]
    exact documented.literal text _ inside digits
  | name text nonempty chars =>
    have plain : ∀ c ∈ text, c ∉ "@:[]".toList := fun c member => (nameChar_plain (chars c member)).2
    have within : "@[]".toList ⊆ "@:[]".toList := by decide
    cases port : u.port with
    | none =>
      rw [Option.map_none, colonPort, List.append_nil]
      exact documented.name text plain
    | some written =>
      rw [port] at digits
      exact documented.ported text written.digits (fun c member delimiter => plain c member (within delimiter))
        (digits written.digits rfl)

theorem singleProxy_url (u : ProxyUrl) :
    p.singleProxy u.text = (p.fromSchemeHostAndPort .socks5 u.host.text (u.port.map ProxyPort.digits)).map
      fun server => ⟨.socks5, server.1, server.2, [], []⟩ := by
  rw [ProxyUrl.text, documented.single u.scheme u.authority u.socks5 fun c member => (u.authority_plain c member).1,
    proxySchemeHostAndPortToProxyServer, documented.parseAuthority_url u]
  simp [u.host.text_ne_nil]

end ProxyParser.Documented

def parseServerInfo (serverinfo : Str) : Str × Option Str :=
  let colon := Cut.last ':' serverinfo
  if colon.found = true ∧ ']' ∉ colon.after ∧ ¬(serverinfo.head? = some '[' ∧ ']' ∉ serverinfo) then
    (colon.before, some colon.after)
  else (serverinfo, none)

/-- A parser that takes every host for what it is written as in lower case, once it can name rules to it. -/
def plainParser (singleProxy : Str → Option (ProxyServer Str)) : ProxyParser Str where
  parseAuthority authority :=
    let userinfo := Cut.last '@' authority
    let server := parseServerInfo userinfo.after
    let name := Cut.first ':' userinfo.before
    if userinfo.found then ⟨some name.before, if name.found then some name.after else none, server.1, server.2⟩
    else ⟨none, none, server.1, server.2⟩
  fromSchemeHostAndPort _ host
    | none => some (host.map Char.toLower, 1080)
    | some port =>
      if port ≠ [] ∧ port.all Char.isDigit ∧ SplitResult.decimal port ≤ 65535 then
        some (host.map Char.toLower, SplitResult.decimal port)
      else none
  decode := decodeUtf8
  singleProxy := singleProxy

def singleParser : ProxyParser Str := plainParser fun rules =>
  let colon := Cut.first ':' rules
  match colon.after with
  | '/' :: '/' :: rest =>
    if colon.before.map Char.toLower = "socks5".toList ∧ rest.all isRuleChar then
      (plainParser fun _ => none).proxySchemeHostAndPortToProxyServer .socks5 rest
    else none
  | _ => none

omit [Python] in
theorem parseAuthority_anonymous {authority : Str} (absent : '@' ∉ authority) :
    singleParser.parseAuthority authority =
      ⟨none, none, (parseServerInfo authority).1, (parseServerInfo authority).2⟩ := by
  simp only [singleParser, plainParser, Cut.last_of_not_mem absent, Bool.false_eq_true, ↓reduceIte]

omit [Python] in
theorem parseServerInfo_bare {host : Str} (absent : ':' ∉ host) : parseServerInfo host = (host, none) := by
  simp [parseServerInfo, Cut.last_of_not_mem absent]

omit [Python] in
theorem parseServerInfo_ported {host port : Str} (colon : ':' ∉ port) (bracket : ']' ∉ port)
    (closed : host.head? = some '[' → ']' ∈ host) : parseServerInfo (host ++ ':' :: port) = (host, some port) := by
  have cut : Cut.last ':' (host ++ ':' :: port) = ⟨host, true, port⟩ := Cut.last_append colon
  have opened : ¬((host ++ ':' :: port).head? = some '[' ∧ ']' ∉ host ++ ':' :: port) := by
    rintro ⟨head, missing⟩
    cases host with
    | nil => simp at head
    | cons c rest => exact missing (List.mem_append_left _ (closed head))
  simp only [parseServerInfo, cut]
  rw [if_pos ⟨trivial, bracket, opened⟩]

omit [Python] in
theorem parseServerInfo_literal (text : Str) :
    parseServerInfo ('[' :: (text ++ [']'])) = ('[' :: (text ++ [']']), none) := by
  by_cases colon : (Cut.last ':' ('[' :: (text ++ [']']))).found = true
  · have whole := Cut.eq_of_last_found colon
    have closing : ']' ∈ (Cut.last ':' ('[' :: (text ++ [']']))).after := by
      have ends := congrArg List.getLast? whole
      rw [← List.cons_append, List.getLast?_concat, List.getLast?_append_cons] at ends
      rcases List.mem_cons.mp (List.mem_of_getLast? ends.symm) with colon | member
      · exact absurd colon (by decide)
      · exact member
    unfold parseServerInfo
    rw [if_neg fun taken => taken.2.1 closing]
  · unfold parseServerInfo
    rw [if_neg fun taken => colon taken.1]

omit [Python] in
theorem singleParser_documented : singleParser.Documented where
  single scheme rest socks5 rule := by
    have absent : ':' ∉ scheme := by
      rw [← Ascii.mem_map_toLower (by decide), socks5]
      decide
    have cut : Cut.first ':' (scheme ++ ("://".toList ++ rest)) = ⟨scheme, true, '/' :: '/' :: rest⟩ :=
      Cut.first_append absent
    have written : rest.all isRuleChar = true := List.all_eq_true.mpr rule
    simp only [singleParser, plainParser, cut]
    rw [if_pos ⟨socks5, written⟩]
    rfl
  userinfo info server absent nonempty := by
    rw [parseAuthority_anonymous absent]
    simp only [singleParser, plainParser, Cut.last_append absent, ↓reduceIte]
  name host plain := by
    have absent : ∀ c ∈ "@:[]".toList, c ∉ host := fun c delimiter member => plain c member delimiter
    rw [parseAuthority_anonymous (absent '@' (by decide)), parseServerInfo_bare (absent ':' (by decide))]
  ported host port inside digits := by
    have missing : ∀ c ∈ "@[]".toList, c ∉ host := fun c delimiter member => inside c member delimiter
    have absent : ∀ c ∈ "@:[]".toList, c ∉ port := fun c delimiter member => digits c member delimiter
    have anonymous : '@' ∉ host ++ ':' :: port := by
      simpa using ⟨missing '@' (by decide), absent '@' (by decide)⟩
    have closed : host.head? = some '[' → ']' ∈ host := fun head =>
      absurd (List.mem_of_head? head) (missing '[' (by decide))
    rw [parseAuthority_anonymous anonymous,
      parseServerInfo_ported (absent ':' (by decide)) (absent ']' (by decide)) closed]
  literal text port inside digits := by
    have missing : '@' ∉ text := fun member => inside '@' member (by decide)
    cases port with
    | none =>
      have anonymous : '@' ∉ '[' :: (text ++ [']']) := by simpa using missing
      rw [colonPort, parseAuthority_anonymous anonymous, parseServerInfo_literal]
    | some port =>
      have absent : ∀ c ∈ "@:[]".toList, c ∉ port := fun c delimiter member => digits port rfl c member delimiter
      have anonymous : '@' ∉ '[' :: (text ++ [']']) ++ ':' :: port := by
        simpa using ⟨missing, absent '@' (by decide)⟩
      have closed : ('[' :: (text ++ [']'])).head? = some '[' → ']' ∈ '[' :: (text ++ [']']) := fun _ => by simp
      have whole : '[' :: (text ++ ']' :: colonPort (some port)) = '[' :: (text ++ [']']) ++ ':' :: port := by
        simp [colonPort]
      rw [whole, parseAuthority_anonymous anonymous,
        parseServerInfo_ported (absent ':' (by decide)) (absent ']' (by decide)) closed]
  asciiCase host port ascii := by
    have twice : (host.map Char.toLower).map Char.toLower = host.map Char.toLower := by
      rw [List.map_map]
      exact List.map_congr_left fun c _ => Char.toLower_toLower_eq_toLower c
    cases port with
    | none => simp only [singleParser, plainParser, twice]
    | some port => simp only [singleParser, plainParser, twice]
  numeric host port positive := by
    have taken : port.digits ≠ [] ∧ port.digits.all Char.isDigit = true ∧ SplitResult.decimal port.digits ≤ 65535 :=
      ⟨port.nonempty, List.all_eq_true.mpr port.decimal, port.range⟩
    simp only [singleParser, plainParser, Option.map_some]
    rw [if_pos taken]
  zero host port server number found := by
    have taken : port.digits ≠ [] ∧ port.digits.all Char.isDigit = true ∧ SplitResult.decimal port.digits ≤ 65535 :=
      ⟨port.nonempty, List.all_eq_true.mpr port.decimal, port.range⟩
    simp only [singleParser, plainParser] at found
    rw [if_pos taken] at found
    cases found
    exact number
  unported host server found := by
    cases found
    rfl
  decodes := decodeUtf8_utf8

end Cronet.Request
