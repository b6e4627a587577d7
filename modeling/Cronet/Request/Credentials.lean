import Cronet.Lib.Machine
import Cronet.Request.Redirect

namespace Cronet.Request

open Cronet.Session (Response)
open Cronet.Url (Str Python origin)

section

variable [Library]

def handOf (headers : TracedHeaders) : List Entry := headers.pairs.filter fun e => isCredential e.1 && e.2.1.byHand

def TracedCall.hand (call : TracedCall) : List Entry := handOf call.traced

def SessionSupplied (defaults : Headers Str) (c : Entry) : Prop :=
  isCredential c.1 = true ∧ c.2.1 = .session ∧ (c.1, c.2.2) ∈ defaults.pairs

def Supplied (options : RequestOptions) (defaults : Headers Str) (c : Entry) : Prop :=
  let own := Headers.mk (options.headers.getD [])
  isCredential c.1 = true ∧
    match c.2.1 with
    | .request => (c.1, c.2.2) ∈ own.pairs
    | .session => (c.1, c.2.2) ∈ defaults.pairs ∧ own.contains c.1 = false
    | .auth => c.1 = "authorization".toList ∧ authorization options = .ok (some c.2.2) ∧
        (own.contains "authorization".toList || defaults.contains "authorization".toList) = false
    | .implied | .jar _ => False

theorem isCredential_lower {name other : Str} (same : Python.lower name = Python.lower other) :
    isCredential name = isCredential other := by
  simp only [isCredential, same]

theorem isCredential_ascii {name : Str} (ascii : Url.isascii name = true) :
    isCredential name = decide (name.map Char.toLower ∈ CREDENTIAL_HEADERS) := by
  rw [isCredential, Python.lower_ascii ascii]

theorem isCredential_authorization : isCredential "authorization".toList = true :=
  (isCredential_ascii (by decide)).trans (by decide)

theorem isCredential_cookie : isCredential "cookie".toList = true :=
  (isCredential_ascii (by decide)).trans (by decide)

theorem isCredential_contentType : isCredential "content-type".toList = false :=
  (isCredential_ascii (by decide)).trans (by decide)

theorem traceCall_ok {J : Type} [CookieJar J] {method url : Str} {options : RequestOptions} {defaults : Headers Str}
    {cookies : Option J} {maxRedirects : Int} {boundary : Str} {call : TracedCall}
    (built : traceCall method url options defaults cookies maxRedirects boundary = .ok call) :
    call.settings.url = url ∧ call.settings.maxRedirects = maxRedirects ∧ ∃ impliedType credentials,
      authorization options = .ok credentials ∧
      call.traced = traceHeaders url options defaults impliedType credentials
        (truthy (cookies.bind (CookieJar.headerFor · url))) := by
  obtain ⟨⟨body, impliedType⟩, _, built⟩ := Checked.bind_ok built
  obtain ⟨credentials, given, built⟩ := Checked.bind_ok built
  obtain ⟨priority, _, built⟩ := Checked.bind_ok built
  cases built
  exact ⟨rfl, rfl, _, credentials, given, rfl⟩

theorem mem_hand {J : Type} [CookieJar J] {method url : Str} {options : RequestOptions} {defaults : Headers Str}
    {cookies : Option J} {maxRedirects : Int} {boundary : Str} {call : TracedCall}
    (built : traceCall method url options defaults cookies maxRedirects boundary = .ok call) (c : Entry) :
    c ∈ call.hand ↔ Supplied options defaults c := by
  obtain ⟨_, _, impliedType, credentials, given, traced⟩ := traceCall_ok built
  obtain ⟨name, source, value⟩ := c
  simp only [TracedCall.hand, handOf, traced, List.mem_filter, Bool.and_eq_true, mem_traceHeaders, Supplied, Placed,
    given, Except.ok.injEq]
  cases source with
  | request | session | auth =>
    simp only [Source.byHand, and_true]
    exact and_comm
  | implied | jar _ => simp only [Source.byHand, Bool.false_eq_true, and_false]

theorem withoutCredentials_headers (options : RequestOptions) {p : Str × Str}
    (member : p ∈ (withoutCredentials options).headers.getD []) : isCredential p.1 = false := by
  have foldAuthorization : Python.lower "authorization".toList = "authorization".toList := Python.lower_ascii (by decide)
  have foldCookie : Python.lower "cookie".toList = "cookie".toList := Python.lower_ascii (by decide)
  simp only [withoutCredentials] at member
  split at member
  · simpa using (List.mem_filter.mp member).2
  · rename_i absent
    simp only [Bool.or_eq_true, not_or, Headers.contains_iff, List.mem_map, not_exists, not_and, foldAuthorization,
      foldCookie] at absent
    simp only [isCredential, CREDENTIAL_HEADERS, decide_eq_false_iff_not, List.mem_cons, List.not_mem_nil, or_false,
      not_or]
    exact ⟨absent.1 p member, absent.2 p member⟩

theorem not_contains_credential {β : Type} {h : Headers β} {name : Str} (plain : ∀ p ∈ h.pairs, isCredential p.1 = false)
    (credential : isCredential name = true) : h.contains name = false := by
  by_contra spoken
  rw [Bool.not_eq_false, Headers.contains_iff, List.mem_map] at spoken
  obtain ⟨p, member, same⟩ := spoken
  rw [← isCredential_lower same, plain p member] at credential
  exact Bool.noConfusion credential

theorem supplied_withoutCredentials {options : RequestOptions} {defaults : Headers Str} {c : Entry} :
    Supplied (withoutCredentials options) defaults c ↔ SessionSupplied defaults c := by
  obtain ⟨name, source, value⟩ := c
  constructor
  · intro ⟨credential, supplied⟩
    cases source with
    | request =>
      have plain := withoutCredentials_headers options supplied
      rw [credential] at plain
      exact Bool.noConfusion plain
    | session => exact ⟨credential, rfl, supplied.1⟩
    | auth => cases supplied.2.1
    | implied | jar _ => cases supplied
  · rintro ⟨credential, rfl, member⟩
    exact ⟨credential, member, not_contains_credential (fun _ => withoutCredentials_headers options) credential⟩

theorem authorization_none {options : RequestOptions} :
    authorization options = .ok none ↔ options.basicAuth = none ∧ options.bearerAuth = none := by
  unfold authorization
  cases options.basicAuth <;> cases options.bearerAuth <;> simp

/-- Nobody gives a call to `url` an Authorization or a Cookie header. -/
structure NoCredentials {J : Type} [CookieJar J] (options : RequestOptions) (defaults : Headers Str) (cookies : Option J)
    (url : Str) : Prop where
  headers : ∀ p ∈ options.headers.getD [], isCredential p.1 = false
  session : ∀ p ∈ defaults.pairs, isCredential p.1 = false
  basicAuth : options.basicAuth = none
  bearerAuth : options.bearerAuth = none
  jar : truthy (cookies.bind (CookieJar.headerFor · url)) = none

theorem noCredentials_iff {J : Type} [CookieJar J] {method url : Str} {options : RequestOptions} {defaults : Headers Str}
    {cookies : Option J} {maxRedirects : Int} {boundary : Str} {call : TracedCall}
    (built : traceCall method url options defaults cookies maxRedirects boundary = .ok call) :
    (∀ c ∈ call.traced.pairs, isCredential c.1 = false) ↔ NoCredentials options defaults cookies url := by
  obtain ⟨_, _, impliedType, credentials, given, traced⟩ := traceCall_ok built
  rw [traced]
  constructor
  · intro plain
    have headers : ∀ p ∈ options.headers.getD [], isCredential p.1 = false := fun p member =>
      plain (p.1, .request, p.2) (mem_traceHeaders.mpr member)
    have session : ∀ p ∈ defaults.pairs, isCredential p.1 = false := by
      intro p member
      by_contra credential
      rw [Bool.not_eq_false] at credential
      have free : (Headers.mk (options.headers.getD [])).contains p.1 = false := not_contains_credential headers credential
      have carried := plain (p.1, .session, p.2) (mem_traceHeaders.mpr ⟨member, free⟩)
      exact Bool.noConfusion (credential.symm.trans carried)
    have free : ∀ name, isCredential name = true →
        ((Headers.mk (options.headers.getD [])).contains name || defaults.contains name) = false := by
      intro name credential
      have own : (Headers.mk (options.headers.getD [])).contains name = false := not_contains_credential headers credential
      rw [own, not_contains_credential session credential]
      rfl
    have noAuth : credentials = none := by
      by_contra nonempty
      obtain ⟨value, rfl⟩ := Option.ne_none_iff_exists'.mp nonempty
      have carried := plain ("authorization".toList, .auth, value)
        (mem_traceHeaders.mpr ⟨rfl, rfl, free _ isCredential_authorization⟩)
      exact Bool.noConfusion (isCredential_authorization.symm.trans carried)
    have noCookie : truthy (cookies.bind (CookieJar.headerFor · url)) = none := by
      by_contra nonempty
      obtain ⟨value, chosen⟩ := Option.ne_none_iff_exists'.mp nonempty
      have carried := plain ("cookie".toList, .jar url, value)
        (mem_traceHeaders.mpr ⟨rfl, rfl, chosen, free _ isCredential_cookie⟩)
      exact Bool.noConfusion (isCredential_cookie.symm.trans carried)
    obtain ⟨basic, bearer⟩ := authorization_none.mp (noAuth ▸ given)
    exact ⟨headers, session, basic, bearer, noCookie⟩
  · intro none_ c member
    obtain ⟨name, source, value⟩ := c
    have noAuth := authorization_none.mpr ⟨none_.basicAuth, none_.bearerAuth⟩
    have placed := mem_traceHeaders.mp member
    cases source with
    | request => exact none_.headers _ placed
    | session => exact none_.session _ placed.1
    | implied => exact placed.1 ▸ isCredential_contentType
    | auth =>
      rw [given, placed.2.1] at noAuth
      cases noAuth
    | jar u =>
      have chosen := placed.2.2.1
      rw [none_.jar] at chosen
      cases chosen

theorem supplied_withoutBody {options : RequestOptions} {defaults : Headers Str} {c : Entry} :
    Supplied (withoutBody options) defaults c ↔ Supplied options defaults c := Iff.rfl

end

end Cronet.Request
