import Cronet.Request.ProxyParser

namespace Cronet.Request

open Cronet.Url (Str Python SplitResult ValueError urlsplit components Ported Readable foldHost isUnsafe isNetlocEnd isScheme)

/-- `quote` without any safe character. -/
def quote (s : Str) : Str := (utf8 s).flatMap percentByte

def quotedUserinfo (username password : Str) : Str :=
  quote username ++ if password ≠ [] then ':' :: quote password else []

theorem unquoteToBytes_quote (s : Str) : unquoteToBytes (quote s) = utf8 s := by
  unfold quote
  induction utf8 s with
  | nil => rfl
  | cons b bytes ih => rw [List.flatMap_cons, unquoteToBytes_percentByte, ih]

theorem mem_quote {s : Str} {c : Char} (member : c ∈ quote s) : c.isAlphanum = true ∨ c ∈ "_.-~%".toList := by
  obtain ⟨b, _, there⟩ := List.mem_flatMap.mp member
  exact mem_percentByte there

theorem quote_eq_nil {s : Str} : quote s = [] ↔ s = [] := by
  constructor
  · intro empty
    have bytes := unquoteToBytes_quote s
    rw [empty] at bytes
    exact utf8_eq_nil.mp bytes.symm
  · rintro rfl
    rfl

theorem mem_quotedUserinfo {username password : Str} {c : Char} (member : c ∈ quotedUserinfo username password) :
    isRuleChar c = true ∧ c ≠ '@' := by
  have quoted : ∀ s : Str, c ∈ quote s → isRuleChar c = true ∧ c ≠ '@' := by
    intro s inside
    rcases mem_quote inside with letter | symbol
    · refine ⟨(nameChar_plain (nameChar_alphanum letter)).1, ?_⟩
      rintro rfl
      exact absurd letter (by decide)
    · simp only [String.reduceToList, List.mem_cons, List.not_mem_nil, or_false] at symbol
      rcases symbol with rfl | rfl | rfl | rfl | rfl <;> decide
  rcases List.mem_append.mp member with name | secret
  · exact quoted username name
  · split at secret
    · rcases List.mem_cons.mp secret with rfl | inside
      · decide
      · exact quoted password inside
    · cases secret

theorem first_quotedUserinfo (username password : Str) :
    (Cut.first ':' (quotedUserinfo username password)).before = quote username ∧
      (if (Cut.first ':' (quotedUserinfo username password)).found then
        some (Cut.first ':' (quotedUserinfo username password)).after else none) =
        if password = [] then none else some (quote password) := by
  have absent : ':' ∉ quote username := fun member => absurd (mem_quote member) (by decide)
  unfold quotedUserinfo
  by_cases empty : password = []
  · simp [empty, Cut.first_of_not_mem absent]
  · simp [empty, Cut.first_append absent]

namespace ProxyParser.Documented

variable {Host : Type} {p : ProxyParser Host} (documented : p.Documented)
include documented

theorem decoded_quote (s : Str) : p.decoded (some (quote s)) = s := by
  unfold decoded
  rw [Option.getD_some]
  split
  · rename_i empty
    exact (quote_eq_nil.mp empty).symm
  · rw [unquoteToBytes_quote, documented.decodes]

theorem singleProxy_credentials {username password server host : Str} {port : Option Str}
    (plain : ∀ c ∈ server, isRuleChar c = true ∧ c ≠ '@') (parsed : p.parseAuthority server = ⟨none, none, host, port⟩)
    (nonempty : server ≠ []) :
    p.singleProxy ("socks5".toList ++ ("://".toList ++ (quotedUserinfo username password ++ '@' :: server))) =
      if host = [] then none
      else (p.fromSchemeHostAndPort .socks5 host port).map fun read =>
        ⟨.socks5, read.1, read.2, username, password⟩ := by
  have rule : ∀ c ∈ quotedUserinfo username password ++ '@' :: server, isRuleChar c = true := by
    intro c member
    rcases List.mem_append.mp member with info | behind
    · exact (mem_quotedUserinfo info).1
    · rcases List.mem_cons.mp behind with rfl | inside
      · decide
      · exact (plain c inside).1
  have absent : '@' ∉ server := fun member => (plain '@' member).2 rfl
  obtain ⟨name, secret⟩ := first_quotedUserinfo username password
  have split := documented.userinfo (quotedUserinfo username password) server absent nonempty
  rw [parsed, name, secret] at split
  have password' : p.decoded (if password = [] then none else some (quote password)) = password := by
    split
    · rename_i empty
      rw [empty]
      rfl
    · exact documented.decoded_quote password
  rw [documented.single _ _ (by decide) rule, proxySchemeHostAndPortToProxyServer, split]
  simp [password', documented.decoded_quote username]

end ProxyParser.Documented

/-- `rules.startswith(("socks5://", "socks4://"))` -/
def namesSocks (rules : Str) : Bool := "socks5://".toList.isPrefixOf rules || "socks4://".toList.isPrefixOf rules

def portSuffix : Option Nat → Str
  | none | some 0 => []
  | some n => ':' :: Nat.toDigits 10 n

section

variable [Python]

def withProxyCredentials (rules username password : Str) : Except ValueError Str :=
  if username = [] ∨ namesSocks rules = false then return rules
  else do
    let parts ← urlsplit rules
    if parts.username.getD [] ≠ [] ∨ parts.hostname = none then return rules
    let port ← parts.port
    return parts.scheme.getD [] ++ ("://".toList ++ (quotedUserinfo username password ++
      '@' :: (parts.hostname.getD [] ++ (portSuffix port ++ parts.path))))

omit [Python] in
theorem namesSocks_iff {rules : Str} :
    namesSocks rules = true ↔ ∃ scheme ∈ ["socks5".toList, "socks4".toList], ∃ rest,
      rules = scheme ++ ("://".toList ++ rest) := by
  have five : "socks5://".toList = "socks5".toList ++ "://".toList := by decide
  have four : "socks4://".toList = "socks4".toList ++ "://".toList := by decide
  rw [namesSocks, five, four, Bool.or_eq_true, List.isPrefixOf_iff_prefix, List.isPrefixOf_iff_prefix]
  constructor
  · rintro (⟨rest, rfl⟩ | ⟨rest, rfl⟩)
    · exact ⟨_, List.mem_cons_self, rest, List.append_assoc ..⟩
    · exact ⟨_, List.mem_cons_of_mem _ List.mem_cons_self, rest, List.append_assoc ..⟩
  · rintro ⟨scheme, socks, rest, rfl⟩
    simp only [List.mem_cons, List.not_mem_nil, or_false] at socks
    rcases socks with rfl | rfl
    · exact .inl ⟨rest, List.append_assoc ..⟩
    · exact .inr ⟨rest, List.append_assoc ..⟩

theorem components_proxy {scheme : Str} (socks : scheme ∈ ["socks5".toList, "socks4".toList]) (rest : Str) :
    (components (scheme ++ ("://".toList ++ rest))).scheme = some scheme ∧
      (components (scheme ++ ("://".toList ++ rest))).netloc =
        some ((rest.filter (!isUnsafe ·)).takeWhile (!isNetlocEnd ·)) := by
  have accepted : isScheme scheme = true ∧ scheme.map Char.toLower = scheme := by
    simp only [List.mem_cons, List.not_mem_nil, or_false] at socks
    rcases socks with rfl | rfl <;> decide
  have cleaned : Url.cleaned (scheme ++ ':' :: ("//".toList ++ rest)) = _ := Url.cleaned_behind accepted.1
  have slashes : ("//".toList ++ rest).filter (!isUnsafe ·) = "//".toList ++ rest.filter (!isUnsafe ·) := rfl
  have split : Url.splitScheme (scheme ++ ':' :: ("//".toList ++ rest.filter (!isUnsafe ·))) = _ :=
    Url.splitScheme_cons accepted.1 accepted.2
  rw [slashes] at cleaned
  change Url.cleaned (scheme ++ ("://".toList ++ rest)) = _ at cleaned
  rw [components, cleaned, split]
  exact ⟨rfl, rfl⟩

theorem userinfo_found {scheme username : Str} (socks : scheme ∈ ["socks5".toList, "socks4".toList])
    (given : username ≠ []) (password rest : Str) :
    (components (scheme ++ ("://".toList ++ (quotedUserinfo username password ++ '@' :: rest)))).username.getD [] ≠ [] := by
  obtain ⟨c, quoted, written⟩ := List.exists_cons_of_ne_nil fun empty => given (quote_eq_nil.mp empty)
  have notColon : c ≠ ':' := by
    rintro rfl
    exact absurd (mem_quote (written ▸ List.mem_cons_self)) (by decide)
  have clean : ∀ d ∈ quotedUserinfo username password, isUnsafe d = false ∧ isNetlocEnd d = false :=
    fun d member => ruleChar_spec (mem_quotedUserinfo member).1
  have filtered : (quotedUserinfo username password ++ '@' :: rest).filter (!isUnsafe ·) =
      quotedUserinfo username password ++ '@' :: rest.filter (!isUnsafe ·) := by
    rw [List.filter_append, List.filter_eq_self.mpr fun d member => by simp [(clean d member).1],
      List.filter_cons_of_pos (by decide)]
  have taken : (quotedUserinfo username password ++ '@' :: rest.filter (!isUnsafe ·)).takeWhile (!isNetlocEnd ·) =
      quotedUserinfo username password ++ '@' :: (rest.filter (!isUnsafe ·)).takeWhile (!isNetlocEnd ·) := by
    rw [List.takeWhile_append_of_pos fun d member => by simp [(clean d member).2],
      List.takeWhile_cons_of_pos (by decide)]
  have netloc := (components_proxy socks (quotedUserinfo username password ++ '@' :: rest)).2
  rw [filtered, taken] at netloc
  obtain ⟨info, shape⟩ : ∃ info, quotedUserinfo username password = c :: info := by
    rw [quotedUserinfo, written]
    exact ⟨_, rfl⟩
  rw [SplitResult.username, netloc, shape, Option.getD_some, List.cons_append]
  generalize (rest.filter (!isUnsafe ·)).takeWhile (!isNetlocEnd ·) = behind
  have later : '@' ∈ info ++ '@' :: behind := List.mem_append_right _ List.mem_cons_self
  have first : (Cut.first ':' (c :: (Cut.last '@' (info ++ '@' :: behind)).before)).before ≠ [] := by
    rw [Cut.first, if_neg notColon]
    exact List.cons_ne_nil _ _
  rw [if_pos (Cut.last_found.mpr (List.mem_cons_of_mem c later)), Cut.last_before_cons later, Option.getD_some]
  exact first

namespace ProxyUrl

variable {u : ProxyUrl}

/-- The URL of a proxy is read as it was written, if its scheme is in lower case. -/
theorem components_text (lower : u.scheme = "socks5".toList) :
    components u.text = ⟨some "socks5".toList, some u.authority, [], none, none⟩ := by
  have clean : ∀ c ∈ u.authority, isUnsafe c = false ∧ isNetlocEnd c = false :=
    fun c member => ruleChar_spec (u.authority_plain c member).1
  have wf : SplitResult.Wellformed ⟨some "socks5".toList, some u.authority, [], none, none⟩ := by
    constructor
    · intro s same
      cases same
      decide
    · intro n same
      cases same
      exact ⟨fun c member => (clean c member).1, fun c member => (clean c member).2⟩
    · exact ⟨fun c member => (List.not_mem_nil member).elim, List.not_mem_nil, List.not_mem_nil⟩
    · intro q same
      cases same
    · intro f same
      cases same
  have read := SplitResult.components_unsplit wf rfl rfl
  have written : Url.unsplit ⟨some "socks5".toList, some u.authority, [], none, none⟩ = u.text := by
    rw [text, lower]
    simp [Url.unsplit]
  rw [written] at read
  exact read

end ProxyUrl

def ProxyHost.bare : ProxyHost → Str
  | name text _ _ => text
  | literal text _ _ _ => text

theorem ProxyHost.bare_plain (host : ProxyHost) : ∀ c ∈ host.bare, isRuleChar c = true ∧ c ∉ "@[]".toList := by
  intro c member
  cases host with
  | name text nonempty chars =>
    have within : "@[]".toList ⊆ "@:[]".toList := by decide
    obtain ⟨rule, plain⟩ := nameChar_plain (chars c member)
    exact ⟨rule, fun delimiter => plain (within delimiter)⟩
  | literal text colon chars address =>
    obtain ⟨rule, plain, _⟩ := literalChar_plain (chars c member)
    exact ⟨rule, plain⟩

theorem ProxyHost.bare_ne_nil (host : ProxyHost) : host.bare ≠ [] := by
  cases host with
  | name text nonempty chars => exact nonempty
  | literal text colon chars address => exact List.ne_nil_of_mem colon

omit [Python] in
theorem suffix_after (port : Option ProxyPort) :
    (if (Cut.first ':' (colonPort (port.map ProxyPort.digits))).after = [] then none
      else some (Cut.first ':' (colonPort (port.map ProxyPort.digits))).after) =
      port.map ProxyPort.digits := by
  cases port with
  | none => rfl
  | some port => simp [colonPort, Cut.first, port.nonempty]

namespace ProxyUrl

variable {u : ProxyUrl} (lower : u.scheme = "socks5".toList)
include lower

theorem username_text : (components u.text).username = none := by
  have absent : '@' ∉ u.authority := fun member => (u.authority_plain '@' member).2 rfl
  rw [components_text lower, SplitResult.username, Option.getD_some, Cut.last_of_not_mem absent]
  rfl

theorem hostinfo_text : (components u.text).hostinfo = (u.host.bare, u.port.map ProxyPort.digits) := by
  have absent : '@' ∉ u.authority := fun member => (u.authority_plain '@' member).2 rfl
  have port := suffix_after u.port
  rw [components_text lower, SplitResult.hostinfo, Option.getD_some, Cut.last_of_not_mem absent]
  unfold authority
  cases host : u.host with
  | literal text colon chars address =>
    have closed : ']' ∉ text := fun member => (literalChar_plain (chars _ member)).2.1 (by decide)
    have opened (s : Str) : Cut.first '[' ('[' :: s) = ⟨[], true, s⟩ := by simp [Cut.first]
    simp only [ProxyHost.text, List.cons_append, List.append_assoc, List.nil_append, opened, ↓reduceIte,
      Cut.first_append closed, port, ProxyHost.bare]
  | name text nonempty chars =>
    have noColon : ':' ∉ text := fun member => (nameChar_plain (chars _ member)).2 (by decide)
    have noBracket : '[' ∉ text ++ colonPort (u.port.map ProxyPort.digits) := by
      intro member
      rcases List.mem_append.mp member with inside | suffix
      · exact (nameChar_plain (chars _ inside)).2 (by decide)
      · exact (colonPort_plain _ suffix).2 (by decide)
    have cut : Cut.first ':' (text ++ colonPort (u.port.map ProxyPort.digits)) =
        { Cut.first ':' (colonPort (u.port.map ProxyPort.digits)) with before := text } := by
      cases u.port with
      | none => simp [colonPort, Cut.first_of_not_mem noColon, Cut.first]
      | some digits => simp [colonPort, Cut.first_append noColon, Cut.first]
    simp only [ProxyHost.text, Cut.first_of_not_mem noBracket, Bool.false_eq_true, ↓reduceIte, cut, port, ProxyHost.bare]

theorem bracketed_text : Url.Bracketed ((components u.text).netloc.getD []) := by
  have netloc : (components u.text).netloc.getD [] = u.authority := by
    rw [components_text lower]
    rfl
  have absent : '@' ∉ u.authority := fun member => (u.authority_plain '@' member).2 rfl
  rw [netloc]
  cases host : u.host with
  | name text nonempty chars =>
    have plain : ∀ c ∈ u.authority, c ∉ "@[]".toList := by
      intro c member
      rw [authority, host] at member
      rcases List.mem_append.mp member with inside | suffix
      · exact ((ProxyHost.name text nonempty chars).bare_plain c inside).2
      · exact (colonPort_plain c suffix).2
    exact .inl ⟨fun opened => plain '[' opened (by decide), fun closed => plain ']' closed (by decide)⟩
  | literal text colon chars address =>
    have shape : u.authority = '[' :: (text ++ ']' :: colonPort (u.port.map ProxyPort.digits)) := by
      simp [authority, host, ProxyHost.text]
    have closed : ']' ∉ text := fun member => (literalChar_plain (chars _ member)).2.1 (by decide)
    have opened (s : Str) : Cut.first '[' ('[' :: s) = ⟨[], true, s⟩ := by simp [Cut.first]
    have ended : colonPort (u.port.map ProxyPort.digits) = [] ∨
        (colonPort (u.port.map ProxyPort.digits)).head? = some ':' := by
      cases u.port with
      | none => exact .inl rfl
      | some port => exact .inr rfl
    have first : text.head? ≠ some 'v' := by
      intro version
      exact (literalChar_plain (chars 'v' (List.mem_of_mem_head? version))).2.2.1 rfl
    have literal : Url.HostLiteral text := by rwa [Url.HostLiteral, if_neg first]
    refine .inr ⟨?_, ?_, ?_⟩
    · rw [shape]
      exact List.mem_cons_self
    · rw [shape]
      exact List.mem_cons_of_mem _ (List.mem_append_right _ List.mem_cons_self)
    · rw [Cut.last_of_not_mem absent, shape]
      simp only [opened, ↓reduceIte, Cut.first_append closed]
      exact ⟨trivial, ended, literal⟩

theorem readable_ascii (ascii : Url.isascii u.authority = true) : Readable u.text := by
  refine ⟨bracketed_text lower, .inl ?_⟩
  rwa [components_text lower]

theorem ported_text : Ported u.text ↔ ∀ port ∈ u.port, port.digits.length ≤ SplitResult.INT_MAX_STR_DIGITS := by
  unfold Ported
  rw [hostinfo_text lower]
  cases u.port with
  | none => exact iff_of_true (fun _ missing => by cases missing) fun _ missing => by cases missing
  | some port =>
    have digits : port.digits.all Char.isDigit = true := List.all_eq_true.mpr port.decimal
    simp only [Option.map_some, Option.some.injEq, forall_eq', digits, port.range, and_true, true_and, Option.mem_def]

theorem port_text (ported : Ported u.text) :
    (components u.text).port = .ok (u.port.map fun port => SplitResult.decimal port.digits) := by
  have short := (ported_text lower).mp ported
  have hostinfo := hostinfo_text lower
  cases given : u.port with
  | none =>
    rw [given] at hostinfo
    rw [SplitResult.port, hostinfo]
    rfl
  | some port =>
    rw [given] at hostinfo
    have written : (components u.text).hostinfo.2 = some port.digits := by rw [hostinfo]; rfl
    exact (Url.port_some written).mpr ⟨List.all_eq_true.mpr port.decimal, short port given, port.range, rfl⟩

end ProxyUrl

omit [Python] in
theorem portSuffix_plain (port : Option Nat) : ∀ c ∈ portSuffix port, c = ':' ∨ c.isDigit = true := by
  intro c member
  unfold portSuffix at member
  split at member
  · cases member
  · cases member
  · exact (List.mem_cons.mp member).imp id (Nat.isDigit_of_mem_toDigits (by decide) (by decide))

omit [Python] in
theorem portSuffix_positive {n : Nat} (positive : n ≠ 0) : portSuffix (some n) = ':' :: Nat.toDigits 10 n := by
  cases n with
  | zero => exact absurd rfl positive
  | succ n => rfl

/-- A port as `str` writes it. -/
def ProxyPort.ofNat (n : Nat) (range : n ≤ 65535) : ProxyPort where
  digits := Nat.toDigits 10 n
  nonempty := Nat.toDigits_ne_nil
  decimal _ member := Nat.isDigit_of_mem_toDigits (by decide) (by decide) member
  range := by
    have same : SplitResult.decimal (Nat.toDigits 10 n) = n := Nat.ofDigitChars_toDigits (by decide) (by decide)
    rwa [same]

omit [Python] in
theorem ProxyPort.decimal_ofNat (n : Nat) (range : n ≤ 65535) :
    SplitResult.decimal (ProxyPort.ofNat n range).digits = n := Nat.ofDigitChars_toDigits (by decide) (by decide)

theorem foldHost_eq_nil {host : Str} (empty : foldHost host = []) : host = [] := by
  obtain ⟨front, after⟩ := List.append_eq_nil_iff.mp empty
  obtain ⟨lowered, percent⟩ := List.append_eq_nil_iff.mp front
  have before := Python.lower_empty lowered
  have absent : '%' ∉ host := by
    intro member
    rw [if_pos (Cut.first_found.mpr member)] at percent
    cases percent
  rwa [Cut.first_of_not_mem absent] at before

theorem foldHost_rule {host : Str} (plain : ∀ c ∈ host, isRuleChar c = true ∧ c ∉ "@[]".toList) :
    ∀ c ∈ foldHost host, isRuleChar c = true ∧ c ∉ "@[]".toList := by
  have named {c : Char} (name : isNameChar c = true) : isRuleChar c = true ∧ c ∉ "@[]".toList := by
    have within : "@[]".toList ⊆ "@:[]".toList := by decide
    exact ⟨(nameChar_plain name).1, fun delimiter => (nameChar_plain name).2 (within delimiter)⟩
  intro c member
  by_cases small : c.toNat < 128
  · by_cases letter : c.isAlpha = true
    · exact named (nameChar_alphanum (by rw [Char.isAlphanum, letter, Bool.true_or]))
    · by_cases percent : c = '%'
      · rw [percent]
        decide
      · exact plain c (Url.mem_foldHost member small (Bool.eq_false_of_not_eq_true letter) percent)
  · exact named (nameChar_wide (by omega))

theorem foldHost_plain {host : Str} (chars : ∀ c ∈ host, isNameChar c = true) :
    ∀ c ∈ foldHost host, c ∉ "@:[]".toList := by
  have delimiter : ∀ c ∈ "@:[]".toList, c.toNat < 128 ∧ c.isAlpha = false ∧ c ≠ '%' := by simp
  intro c member among
  obtain ⟨small, symbol, percent⟩ := delimiter c among
  exact (nameChar_plain (chars c (Url.mem_foldHost member small symbol percent))).2 among

omit [Python] in
theorem isascii_literal {literal : Str} (chars : ∀ c ∈ literal, isLiteralChar c = true) : Url.isascii literal = true := by
  rw [Url.isascii, List.all_eq_true]
  exact fun c member => decide_eq_true (literalChar_lt (chars c member))

theorem foldHost_literal {literal : Str} (chars : ∀ c ∈ literal, isLiteralChar c = true) :
    foldHost literal = literal.map Char.toLower := by
  have absent : '%' ∉ literal := fun member => (literalChar_plain (chars _ member)).2.2.2 rfl
  have ascii : Url.isascii literal = true := isascii_literal chars
  simp [foldHost, Cut.first_of_not_mem absent, Python.lower_ascii ascii]

namespace ProxyUrl

def number (u : ProxyUrl) : Option Nat := u.port.map fun port => SplitResult.decimal port.digits

def server (u : ProxyUrl) : Str := foldHost u.host.bare ++ portSuffix u.number

theorem server_plain (u : ProxyUrl) : ∀ c ∈ u.server, isRuleChar c = true ∧ c ∉ "@[]".toList := by
  intro c member
  rcases List.mem_append.mp member with host | port
  · exact foldHost_rule u.host.bare_plain c host
  · have within : "@[]".toList ⊆ "@:[]".toList := by decide
    rcases portSuffix_plain u.number c port with rfl | digit
    · decide
    · exact ⟨(digit_plain digit).1, fun delimiter => (digit_plain digit).2 (within delimiter)⟩

theorem server_ne_nil (u : ProxyUrl) : u.server ≠ [] := by
  intro empty
  exact u.host.bare_ne_nil (foldHost_eq_nil (List.append_eq_nil_iff.mp empty).1)

/-- The host and port that are read behind the credentials are those of the rules: a name has no port 0 and is the same
    server once it is folded, and a literal without its brackets is split at its last colon into what the parser takes for
    the same server. -/
def Keeps {Host : Type} (p : ProxyParser Host) (u : ProxyUrl) : Prop :=
  match u.host with
  | .name text .. =>
    p.fromSchemeHostAndPort .socks5 (foldHost text) (u.port.map ProxyPort.digits) =
        p.fromSchemeHostAndPort .socks5 text (u.port.map ProxyPort.digits) ∧
      ∀ port ∈ u.port, SplitResult.decimal port.digits ≠ 0
  | .literal text .. =>
    let cut := Cut.last ':' (text.map Char.toLower ++ portSuffix u.number)
    cut.before ≠ [] ∧ p.fromSchemeHostAndPort .socks5 cut.before (some cut.after) =
      p.fromSchemeHostAndPort .socks5 u.host.text (u.port.map ProxyPort.digits)

end ProxyUrl

theorem withProxyCredentials_text {u : ProxyUrl} (lower : u.scheme = "socks5".toList) (readable : Readable u.text)
    (ported : Ported u.text) {username : Str} (given : username ≠ []) (password : Str) :
    withProxyCredentials u.text username password =
      .ok ("socks5".toList ++ ("://".toList ++ (quotedUserinfo username password ++ '@' :: u.server))) := by
  have socks : namesSocks u.text = true :=
    namesSocks_iff.mpr ⟨_, List.mem_cons_self, u.authority, by rw [ProxyUrl.text, lower]⟩
  have anonymous := ProxyUrl.username_text lower
  have hostinfo := ProxyUrl.hostinfo_text lower
  have split : urlsplit u.text = .ok (components u.text) :=
    Url.urlsplit_ok.mpr ⟨readable, rfl⟩
  have named : (components u.text).hostname = some (foldHost u.host.bare) := by
    rw [SplitResult.hostname, hostinfo, if_neg u.host.bare_ne_nil]
  unfold withProxyCredentials
  rw [if_neg (by simp [given, socks]), split, Checked.ok_bind, anonymous, named, ProxyUrl.port_text lower ported]
  rw [ProxyUrl.components_text lower]
  simp [ProxyUrl.server, ProxyUrl.number]

theorem readable_of_folded {u : ProxyUrl} (lower : u.scheme = "socks5".toList) {username password result : Str}
    (given : username ≠ []) (folded : withProxyCredentials u.text username password = .ok result) :
    Readable u.text ∧ Ported u.text := by
  have socks : namesSocks u.text = true :=
    namesSocks_iff.mpr ⟨_, List.mem_cons_self, u.authority, by rw [ProxyUrl.text, lower]⟩
  unfold withProxyCredentials at folded
  rw [if_neg (by simp [given, socks])] at folded
  obtain ⟨parts, split, folded⟩ := Checked.bind_ok folded
  obtain ⟨readable, rfl⟩ := Url.urlsplit_ok.mp split
  have named : (components u.text).hostname ≠ none := by
    rw [SplitResult.hostname, ProxyUrl.hostinfo_text lower, if_neg u.host.bare_ne_nil]
    exact Option.some_ne_none _
  have anonymous : ¬((components u.text).username.getD [] ≠ [] ∨ (components u.text).hostname = none) := by
    rw [ProxyUrl.username_text lower]
    exact fun either => either.elim (fun found => found rfl) named
  rw [if_neg anonymous] at folded
  obtain ⟨port, taken, _⟩ := Checked.bind_ok folded
  exact ⟨readable, Url.port_ok.mp ⟨port, taken⟩⟩

def ProxyServer.withCredentials {Host : Type} (username password : Str) (server : ProxyServer Host) : ProxyServer Host :=
  { server with username, password }

namespace ProxyParser.Documented

variable {Host : Type} {p : ProxyParser Host} (documented : p.Documented)
include documented

/-- Once the server behind the credentials is split, it is read as the rules are exactly if its host and port are. -/
theorem reads_split {u : ProxyUrl} (accepted : (p.singleProxy u.text).isSome = true) {host : Str} {port : Option Str}
    (parsed : p.parseAuthority u.server = ⟨none, none, host, port⟩) (username password : Str) :
    p.singleProxy ("socks5".toList ++ ("://".toList ++ (quotedUserinfo username password ++ '@' :: u.server))) =
        (p.singleProxy u.text).map (·.withCredentials username password) ↔
      host ≠ [] ∧ p.fromSchemeHostAndPort .socks5 host port =
        p.fromSchemeHostAndPort .socks5 u.host.text (u.port.map ProxyPort.digits) := by
  have plain : ∀ c ∈ u.server, isRuleChar c = true ∧ c ≠ '@' := by
    intro c member
    obtain ⟨rule, delimiter⟩ := u.server_plain c member
    refine ⟨rule, ?_⟩
    rintro rfl
    exact delimiter (by decide)
  rw [documented.singleProxy_url u] at accepted ⊢
  rw [documented.singleProxy_credentials plain parsed u.server_ne_nil, Option.map_map]
  obtain ⟨⟨there, number⟩, read⟩ := Option.isSome_iff_exists.mp (Option.isSome_map.symm.trans accepted)
  rw [read]
  by_cases empty : host = []
  · simp [empty]
  · cases p.fromSchemeHostAndPort .socks5 host port <;> simp [empty, ProxyServer.withCredentials, Prod.ext_iff]

theorem parseAuthority_literal {u : ProxyUrl} (colon : ':' ∈ u.server) :
    p.parseAuthority u.server =
      ⟨none, none, (Cut.last ':' u.server).before, some (Cut.last ':' u.server).after⟩ := by
  have split := Cut.eq_of_last_found (Cut.last_found.mpr colon)
  have absent := Cut.last_after_not_mem ':' u.server
  generalize Cut.last ':' u.server = cut at split absent ⊢
  have plain := u.server_plain
  rw [split] at plain ⊢
  apply documented.ported
  · exact fun c member => (plain c (List.mem_append_left _ member)).2
  · intro c member delimiter
    have inside := (plain c (List.mem_append_right _ (List.mem_cons_of_mem _ member))).2
    simp only [String.reduceToList, List.mem_cons, List.not_mem_nil, or_false] at delimiter inside
    rcases delimiter with rfl | rfl | rfl | rfl
    · exact inside (.inl rfl)
    · exact absent member
    · exact inside (.inr (.inl rfl))
    · exact inside (.inr (.inr rfl))

theorem fromSchemeHostAndPort_folded {host : Str} (ascii : Url.isascii host = true) (port : Option Str) :
    p.fromSchemeHostAndPort .socks5 (foldHost host) port = p.fromSchemeHostAndPort .socks5 host port := by
  rw [← documented.asciiCase (foldHost host) port (Url.isascii_foldHost ascii), Url.foldHost_lowered ascii,
    documented.asciiCase host port ascii]

omit [Python] in
theorem fromSchemeHostAndPort_suffix {text folded : Str} (port : ProxyPort)
    (accepted : (p.fromSchemeHostAndPort .socks5 text (some port.digits)).isSome = true) :
    p.fromSchemeHostAndPort .socks5 folded (if SplitResult.decimal port.digits = 0 then none
        else some (Nat.toDigits 10 (SplitResult.decimal port.digits))) =
        p.fromSchemeHostAndPort .socks5 text (some port.digits) ↔
      p.fromSchemeHostAndPort .socks5 folded (some port.digits) = p.fromSchemeHostAndPort .socks5 text (some port.digits) ∧
        SplitResult.decimal port.digits ≠ 0 := by
  by_cases zero : SplitResult.decimal port.digits = 0
  · rw [if_pos zero]
    refine iff_of_false (fun same => ?_) fun both => both.2 zero
    obtain ⟨read, found⟩ := Option.isSome_iff_exists.mp accepted
    have none := documented.zero text port read zero found
    have default := documented.unported folded read (same.trans found)
    rw [none] at default
    cases default
  · rw [if_neg zero]
    have digits := ProxyPort.decimal_ofNat _ port.range
    have again := documented.numeric folded (ProxyPort.ofNat _ port.range) (by rwa [digits])
    rw [digits, ← documented.numeric folded port zero] at again
    rw [← again, and_iff_left zero]
    rfl

omit [Python] in
theorem parseAuthority_suffix {host : Str} (plain : ∀ c ∈ host, c ∉ "@:[]".toList) (n : Nat) :
    p.parseAuthority (host ++ portSuffix (some n)) =
      ⟨none, none, host, if n = 0 then none else some (Nat.toDigits 10 n)⟩ := by
  by_cases zero : n = 0
  · rw [if_pos zero, zero]
    have bare : host ++ portSuffix (some 0) = host := List.append_nil _
    rw [bare]
    exact documented.name host plain
  · have within : "@[]".toList ⊆ "@:[]".toList := by decide
    rw [if_neg zero, portSuffix_positive zero]
    exact documented.ported host (Nat.toDigits 10 n) (fun c member delimiter => plain c member (within delimiter))
      fun c member => (digit_plain (Nat.isDigit_of_mem_toDigits (by decide) (by decide) member)).2

theorem reads_iff {u : ProxyUrl} (accepted : (p.singleProxy u.text).isSome = true) (username password : Str) :
    p.singleProxy ("socks5".toList ++ ("://".toList ++ (quotedUserinfo username password ++ '@' :: u.server))) =
        (p.singleProxy u.text).map (·.withCredentials username password) ↔ u.Keeps p := by
  cases host : u.host with
  | literal text colon chars address =>
    have server : u.server = text.map Char.toLower ++ portSuffix u.number := by
      rw [ProxyUrl.server, host, ProxyHost.bare, foldHost_literal chars]
    have inside : ':' ∈ u.server := by
      rw [server]
      exact List.mem_append_left _ ((Ascii.mem_map_toLower (by decide)).mpr colon)
    rw [documented.reads_split accepted (documented.parseAuthority_literal inside), server]
    simp only [ProxyUrl.Keeps, host]
  | name text nonempty chars =>
    have plain := foldHost_plain chars
    have named : foldHost text ≠ [] := fun empty => nonempty (foldHost_eq_nil empty)
    have server : u.server = foldHost text ++ portSuffix u.number := by rw [ProxyUrl.server, host]; rfl
    have keeps : u.Keeps p ↔ p.fromSchemeHostAndPort .socks5 (foldHost text) (u.port.map ProxyPort.digits) =
        p.fromSchemeHostAndPort .socks5 text (u.port.map ProxyPort.digits) ∧
          ∀ port ∈ u.port, SplitResult.decimal port.digits ≠ 0 := by simp only [ProxyUrl.Keeps, host]
    have written : u.host.text = text := by rw [host]; rfl
    rw [keeps]
    cases given : u.port with
    | none =>
      have whole : u.server = foldHost text := by rw [server, ProxyUrl.number, given]; exact List.append_nil _
      have parsed := documented.name (foldHost text) plain
      rw [← whole] at parsed
      rw [documented.reads_split accepted parsed, whole, written, given, and_iff_right named]
      exact (and_iff_left fun port missing => (Option.not_mem_none port missing).elim).symm
    | some port =>
      have parsed := documented.parseAuthority_suffix plain (SplitResult.decimal port.digits)
      have number : u.number = some (SplitResult.decimal port.digits) := by rw [ProxyUrl.number, given]; rfl
      rw [← number, ← server] at parsed
      rw [documented.reads_split accepted parsed, written, given, Option.map_some]
      rw [documented.singleProxy_url u, written, given, Option.isSome_map, Option.map_some] at accepted
      rw [documented.fromSchemeHostAndPort_suffix port accepted, and_iff_right named]
      apply and_congr Iff.rfl
      exact ⟨fun positive other same => Option.some.inj same ▸ positive, fun each => each port rfl⟩

theorem keeps_ascii {u : ProxyUrl} {text : Str} {nonempty : text ≠ []} {chars : ∀ c ∈ text, isNameChar c = true}
    (host : u.host = .name text nonempty chars) (ascii : Url.isascii text = true) :
    u.Keeps p ↔ ∀ port ∈ u.port, SplitResult.decimal port.digits ≠ 0 := by
  simp only [ProxyUrl.Keeps, host, documented.fromSchemeHostAndPort_folded ascii, true_and]

end ProxyParser.Documented

theorem withProxyCredentials_unchanged {rules username : Str} (socks : namesSocks rules = true) (given : username ≠ [])
    (password : Str) :
    withProxyCredentials rules username password = .ok rules ↔
      Readable rules ∧ ((components rules).username.getD [] ≠ [] ∨ (components rules).hostname = none) := by
  unfold withProxyCredentials
  rw [if_neg (by simp [given, socks])]
  constructor
  · intro same
    obtain ⟨parts, split, same⟩ := Checked.bind_ok same
    obtain ⟨readable, rfl⟩ := Url.urlsplit_ok.mp split
    refine ⟨readable, ?_⟩
    by_contra changed
    rw [if_neg changed] at same
    obtain ⟨port, _, same⟩ := Checked.bind_ok same
    obtain ⟨scheme, member, rest, shape⟩ := namesSocks_iff.mp socks
    have schemed : (components rules).scheme = some scheme := shape ▸ (components_proxy member rest).1
    rw [schemed] at same
    have found := userinfo_found member given password
      ((components rules).hostname.getD [] ++ (portSuffix port ++ (components rules).path))
    change (components (Option.getD (some scheme) [] ++ _)).username.getD [] ≠ [] at found
    rw [Except.ok.inj same] at found
    exact changed (.inl found)
  · rintro ⟨readable, unchanged⟩
    rw [Url.urlsplit_ok.mpr ⟨readable, rfl⟩, Checked.ok_bind, if_pos unchanged]
    rfl

section

variable {Host : Type} (p : ProxyParser Host)

/-- The rules are the URL of a single SOCKS5 proxy without userinfo, and the parser takes it. -/
def SingleSocks5 (rules : Str) : Prop := ∃ u : ProxyUrl, rules = u.text ∧ (p.singleProxy rules).isSome = true

/-- Credentials go into the URL of a single SOCKS5 proxy, where the parser reads them beside the host and port it
    read before, and everything else is returned as it is. -/
structure CredentialsFolded (rules username password : Str) : Prop where
  folded : username ≠ [] → SingleSocks5 p rules → ∃ result, withProxyCredentials rules username password = .ok result ∧
    p.singleProxy result = (p.singleProxy rules).map (·.withCredentials username password)
  untouched : ¬(username ≠ [] ∧ SingleSocks5 p rules) → withProxyCredentials rules username password = .ok rules

/-- The rules are returned as they are: they begin with neither scheme, or `urlsplit` finds a user name in them or no
    host. -/
inductive LeftAlone (rules : Str) : Prop where
  | unnamed (other : namesSocks rules = false) (single : ¬SingleSocks5 p rules)
  | authorized (socks : namesSocks rules = true) (readable : Readable rules)
      (named : (components rules).username.getD [] ≠ [])
  | hostless (socks : namesSocks rules = true) (readable : Readable rules)
      (nameless : (components rules).hostname = none)

/-- The rules are a URL that `urlsplit` and `port` take, and whose host and port stay what they are behind credentials. -/
def Foldable (rules : Str) : Prop :=
  ∃ u : ProxyUrl, rules = u.text ∧ u.scheme = "socks5".toList ∧ (p.singleProxy rules).isSome = true ∧
    (Readable rules ∧ Ported rules) ∧ u.Keeps p

end

theorem leftAlone_socks {Host : Type} {p : ProxyParser Host} {rules : Str} (socks : namesSocks rules = true) :
    LeftAlone p rules ↔
      Readable rules ∧ ((components rules).username.getD [] ≠ [] ∨ (components rules).hostname = none) := by
  constructor
  · intro alone
    cases alone with
    | unnamed other single => exact absurd (other.symm.trans socks) Bool.false_ne_true
    | authorized _ readable named => exact ⟨readable, .inl named⟩
    | hostless _ readable nameless => exact ⟨readable, .inr nameless⟩
  · rintro ⟨readable, named | nameless⟩
    · exact .authorized socks readable named
    · exact .hostless socks readable nameless

theorem lower_of_namesSocks {u : ProxyUrl} (socks : namesSocks u.text = true) : u.scheme = "socks5".toList := by
  obtain ⟨scheme, member, rest, shape⟩ := namesSocks_iff.mp socks
  have long : u.scheme.length = 6 := by
    have lengths := congrArg List.length u.socks5
    rwa [List.length_map, show "socks5".toList.length = 6 by decide] at lengths
  have size : ∀ s ∈ ["socks5".toList, "socks4".toList], s.length = 6 := by decide
  rw [ProxyUrl.text] at shape
  have same : u.scheme = scheme := (List.append_inj shape (long.trans (size scheme member).symm)).1
  simp only [List.mem_cons, List.not_mem_nil, or_false] at member
  rcases member with rfl | rfl
  · exact same
  · have lowered := u.socks5
    rw [same] at lowered
    exact absurd lowered (by decide)

section

variable {Host : Type} {p : ProxyParser Host} (documented : p.Documented) {rules username : Str} (given : username ≠ [])
include documented given

theorem folded_unnamed (other : namesSocks rules = false) (password : Str) :
    CredentialsFolded p rules username password ↔ ¬SingleSocks5 p rules := by
  have unchanged : withProxyCredentials rules username password = .ok rules := if_pos (.inr other)
  constructor
  · intro law single
    obtain ⟨result, same, read⟩ := law.folded given single
    obtain ⟨u, rfl, accepted⟩ := single
    obtain rfl := Except.ok.inj (unchanged.symm.trans same)
    rw [documented.singleProxy_url u] at accepted read
    obtain ⟨server, found⟩ := Option.isSome_iff_exists.mp (Option.isSome_map.symm.trans accepted)
    rw [found] at read
    have name : [] = username := congrArg ProxyServer.username (Option.some.inj read)
    exact given name.symm
  · intro several
    exact ⟨fun _ single => absurd single several, fun _ => unchanged⟩

theorem folded_single {u : ProxyUrl} (lower : u.scheme = "socks5".toList)
    (accepted : (p.singleProxy u.text).isSome = true) (password : Str) :
    CredentialsFolded p u.text username password ↔ (Readable u.text ∧ Ported u.text) ∧ u.Keeps p := by
  rw [← documented.reads_iff accepted username password]
  constructor
  · intro law
    obtain ⟨result, same, read⟩ := law.folded given ⟨u, rfl, accepted⟩
    have taken := readable_of_folded lower given same
    have changed := withProxyCredentials_text lower taken.1 taken.2 given password
    obtain rfl := Except.ok.inj (changed.symm.trans same)
    exact ⟨taken, read⟩
  · rintro ⟨⟨readable, ported⟩, read⟩
    have changed := withProxyCredentials_text lower readable ported given password
    exact ⟨fun _ _ => ⟨_, changed, read⟩, fun several => absurd ⟨given, u, rfl, accepted⟩ several⟩

end

/-- Credentials are folded into exactly those rules that have none to take, are left alone or are foldable. -/
theorem credentials_folded_iff {Host : Type} {p : ProxyParser Host} (documented : p.Documented)
    (rules username password : Str) :
    CredentialsFolded p rules username password ↔ username = [] ∨ LeftAlone p rules ∨ Foldable p rules := by
  by_cases given : username = []
  · refine iff_of_true ?_ (.inl given)
    exact ⟨fun nonempty => absurd given nonempty, fun _ => if_pos (.inl given)⟩
  cases socks : namesSocks rules with
  | false =>
    rw [folded_unnamed documented given socks password]
    constructor
    · exact fun several => .inr (.inl (.unnamed socks several))
    · rintro (none | alone | ⟨u, rfl, lower, _⟩)
      · exact absurd none given
      · cases alone with
        | unnamed _ single => exact single
        | authorized named _ _ => exact absurd (socks.symm.trans named) Bool.false_ne_true
        | hostless named _ _ => exact absurd (socks.symm.trans named) Bool.false_ne_true
      · have named : namesSocks u.text = true :=
          namesSocks_iff.mpr ⟨_, List.mem_cons_self, u.authority, by rw [ProxyUrl.text, lower]⟩
        exact absurd (socks.symm.trans named) Bool.false_ne_true
  | true =>
    by_cases single : SingleSocks5 p rules
    · obtain ⟨u, rfl, accepted⟩ := single
      have lower := lower_of_namesSocks socks
      rw [folded_single documented given lower accepted password]
      constructor
      · exact fun foldable => .inr (.inr ⟨u, rfl, lower, accepted, foldable⟩)
      · rintro (none | alone | ⟨v, same, small, taken, readable, keeps⟩)
        · exact absurd none given
        · obtain ⟨_, named | nameless⟩ := (leftAlone_socks socks).mp alone
          · exact absurd (congrArg (Option.getD · []) (ProxyUrl.username_text lower)) named
          · rw [SplitResult.hostname, ProxyUrl.hostinfo_text lower, if_neg u.host.bare_ne_nil] at nameless
            cases nameless
        · rw [← folded_single documented given lower accepted password]
          rw [same] at taken readable ⊢
          exact (folded_single documented given small taken password).mpr ⟨readable, keeps⟩
    · have untouched : CredentialsFolded p rules username password ↔
          withProxyCredentials rules username password = .ok rules :=
        ⟨fun law => law.untouched fun both => single both.2, fun same => ⟨fun _ one => absurd one single, fun _ => same⟩⟩
      rw [untouched, withProxyCredentials_unchanged socks given password, ← leftAlone_socks socks]
      constructor
      · exact fun alone => .inr (.inl alone)
      · rintro (none | alone | ⟨u, same, _, accepted, _⟩)
        · exact absurd none given
        · exact alone
        · exact absurd ⟨u, same, accepted⟩ single

end

section

attribute [local instance] Url.asciiPython

def namedProxy : ProxyUrl where
  scheme := "socks5".toList
  socks5 := by decide
  host := .name "proxy.test".toList (by decide) (List.all_eq_true.mp (by decide))
  port := some ⟨"1080".toList, by decide, List.all_eq_true.mp (by decide), by decide⟩

theorem namedProxy_foldable : Foldable singleParser "socks5://proxy.test:1080".toList := by
  have readable : Readable namedProxy.text := ProxyUrl.readable_ascii rfl (by decide)
  have ported : Ported namedProxy.text := (ProxyUrl.ported_text rfl).mpr (by decide)
  have keeps : namedProxy.Keeps singleParser := (singleParser_documented.keeps_ascii rfl (by decide)).mpr (by decide)
  exact ⟨namedProxy, by decide, rfl, by decide +kernel, ⟨readable, ported⟩, keeps⟩

theorem credentials_folded_named :
    CredentialsFolded singleParser "socks5://proxy.test:1080".toList "a@b".toList "c:d%".toList :=
  (credentials_folded_iff singleParser_documented _ _ _).mpr (.inr (.inr namedProxy_foldable))

/-- A list of proxies is no number behind its first colon, and credentials are put into a SOCKS4 proxy, where no parser
    takes them. -/
theorem list_raises :
    withProxyCredentials "socks5://a:1080,direct://".toList "u".toList [] = .error (.portNotANumber "1080,direct:".toList) ∧
      withProxyCredentials "socks4://a:1080".toList "u".toList [] = .ok "socks4://u@a:1080".toList ∧
      ¬∀ rules username password : Str, CredentialsFolded singleParser rules username password := by
  have raised : withProxyCredentials "socks5://a:1080,direct://".toList "u".toList [] =
      .error (.portNotANumber "1080,direct:".toList) := by decide +kernel
  refine ⟨raised, by decide +kernel, fun law => ?_⟩
  have list := law "socks5://a:1080,direct://".toList "u".toList []
  by_cases single : SingleSocks5 singleParser "socks5://a:1080,direct://".toList
  · obtain ⟨result, returned, _⟩ := list.folded (by decide) single
    rw [raised] at returned
    cases returned
  · have returned := list.untouched fun both => single both.2
    rw [raised] at returned
    cases returned

end

end Cronet.Request
