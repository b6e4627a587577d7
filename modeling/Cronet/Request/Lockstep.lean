import Cronet.Lib.Descent
import Cronet.Native.Call
import Cronet.Request.Walk

namespace Cronet.Request

open Cronet.Native (NetOp RequestObserver ResponseHead CRONET_ERROR_TOO_MANY_REDIRECTS)
open Cronet.Session (Response RequestErrorClass errorClass)
open Cronet.Url (Str Python origin urljoin)

/-- A `char*` ends at its first NUL. -/
def cString (s : Str) : Str := s.takeWhile (· ≠ '\x00')

structure RequestLine where
  method : Str
  url : Str
  deriving DecidableEq

/-- What a server answers; and, of Chromium, which methods are tokens, the URL a text is read as,
    and where a `Location` leads. `none` is a URL that is not valid. -/
structure Web where
  server : RequestLine → Response
  isToken : Str → Bool
  canonical : Str → Option Str
  resolve : Str → Str → Option Str

section

variable [Library]

/-- `_build_request` and what `cronet_call_start` reads of it. -/
def givenMethod (method : Str) : Str :=
  let sent := cString (Python.upper method)
  if sent = [] then "GET".toList else sent

namespace Web

variable (web : Web)

/-- `SetHttpMethod` leaves a method that is no token at GET, and its answer is not looked at. -/
def sentMethod (method : Str) : Str :=
  if web.isToken (givenMethod method) then givenMethod method else "GET".toList

def start (method url : Str) : Option RequestLine :=
  (web.canonical (cString url)).map (RequestLine.mk (web.sentMethod method))

end Web

/-- An `int32_t` field takes the low bits of what is stored in it. -/
def int32 (n : Int) : Int := n.bmod (2 ^ 32)

omit [Library] in
theorem int32_eq (n : Int) : int32 n = if n % 2 ^ 32 < 2 ^ 31 then n % 2 ^ 32 else n % 2 ^ 32 - 2 ^ 32 := rfl

inductive Ending where
  | response (response : Response)
  | tooManyRedirects
  | failed

def Ending.ofClass : RequestErrorClass → Ending
  | .tooManyRedirects => .tooManyRedirects
  | _ => .failed

def Ending.ofRaised : Raised → Ending
  | .cronet (.requestError kind _ _ _) => .ofClass kind
  | _ => .failed

/-- `Finish` with this code, as `result` reports it. -/
def Ending.ofCode (code : Int) (response : Response) : Ending :=
  if code = 0 then .response response else .ofClass (errorClass code)

def headOf (response : Response) : ResponseHead :=
  ⟨response.statusCode, response.reason, some response.headers, response.fromCache, response.httpVersion, response.proxy⟩

def REDIRECT_STATUSES : List Int := [301, 302, 303, 307, 308]

def locations (response : Response) : List Str := (responseHeaders response).getList "location".toList

/-- The first `Location` that is not empty, of a response Chromium takes for a redirect. -/
def nativeLocation (response : Response) : Option Str :=
  if response.statusCode ∈ REDIRECT_STATUSES then (locations response).find? (· ≠ []) else none

def methodAfter (method : Str) (status : Int) : Str :=
  if (status = 303 ∧ method ≠ "HEAD".toList) ∨ ((status = 301 ∨ status = 302) ∧ method = "POST".toList) then
    "GET".toList
  else method

def claimed : NetOp → Option Int
  | .claimOutcome code _ => some code
  | _ => none

omit [Library] in
theorem redirect_goes {o : RequestObserver} (within : (o.redirectCount : Int) < o.maxRedirects) (newLocation : String)
    (head : ResponseHead) :
    o.onReceivedRedirect newLocation head =
      ({ o with redirectCount := o.redirectCount + 1 }, [.onRedirect newLocation, .followRedirect]) :=
  if_neg (Int.not_le.mpr within)

omit [Library] in
theorem redirect_stops {o : RequestObserver} (spent : o.maxRedirects ≤ o.redirectCount) (newLocation : String)
    (head : ResponseHead) :
    NetOp.followRedirect ∉ (o.onReceivedRedirect newLocation head).2 ∧
      (o.onReceivedRedirect newLocation head).2.findSome? claimed =
        some (if o.maxRedirects = 0 then 0 else CRONET_ERROR_TOO_MANY_REDIRECTS) := by
  rw [RequestObserver.onReceivedRedirect, if_pos spent]
  split
  · exact ⟨by simp [RequestObserver.responseOps], rfl⟩
  · exact ⟨by simp [RequestObserver.responseOps], rfl⟩

/-- `next_hop` sees a redirect in any 3xx, and reads every `Location` there is as one. -/
def joinedLocation (response : Response) : Str := ((responseHeaders response).get? "location".toList).getD []

def Located (response : Response) : Prop :=
  joinedLocation response ≠ [] ∧ 300 ≤ response.statusCode ∧ response.statusCode < 400

/-- `location` leads from `url` to `target`, and both have an origin. -/
def Resolves (url location target : Str) : Prop :=
  urljoin url location = .ok target ∧ (∃ here, origin url = .ok here) ∧ ∃ there, origin target = .ok there

section

variable {method url : Str} {response : Response} (options : RequestOptions)

end

namespace RedirectChain

variable {J : Type} [CookieJar J] {chain : RedirectChain J} {method url : Str} {options : RequestOptions}
  {response : Response} (waits : chain.pending = some (method, url, options))

include waits

theorem receive_error {e : Raised} (raises : nextHop method url response options = .error e) :
    chain.receive response = .error e := by
  simp only [receive, waits, raises]
  rfl

theorem receive_last (last : nextHop method url response options = .ok none) :
    ∃ next, chain.receive response = .ok next ∧ next.pending = none ∧ next.result = .ok (response, chain.history) := by
  simp only [receive, waits, last]
  exact ⟨_, rfl, rfl, rfl⟩

theorem receive_unfollowed {hop : Str × Str × RequestOptions} (found : nextHop method url response options = .ok (some hop))
    (unlimited : chain.limit = 0) :
    ∃ next, chain.receive response = .ok next ∧ next.pending = none ∧ next.result = .ok (response, chain.history) := by
  simp only [receive, waits, found, bind, Except.bind, unlimited, if_true]
  exact ⟨_, rfl, rfl, rfl⟩

theorem receive_exhausted {hop : Str × Str × RequestOptions} (found : nextHop method url response options = .ok (some hop))
    (limited : chain.limit ≠ 0) (spent : chain.limit ≤ chain.history.length) :
    ∃ message code start, chain.receive response = .error (.cronet (.requestError .tooManyRedirects message code start)) := by
  simp only [receive, waits, found, bind, Except.bind, limited, if_false, spent, if_true]
  exact ⟨_, _, _, rfl⟩

theorem receive_goes {hop : Str × Str × RequestOptions} (found : nextHop method url response options = .ok (some hop))
    (limited : chain.limit ≠ 0) (within : chain.history.length < chain.limit) :
    ∃ next, chain.receive response = .ok next ∧ next.pending = some hop ∧ next.limit = chain.limit ∧
      next.history.length = chain.history.length + 1 := by
  simp only [receive, waits, found, bind, Except.bind, limited, if_false, Int.not_le.mpr within]
  exact ⟨_, rfl, rfl, rfl, List.length_append⟩

omit waits in
theorem receive_grows {next : RedirectChain J} (received : chain.receive response = .ok next)
    (goes : next.pending ≠ none) :
    (chain.history.length : Int) < chain.limit ∧ next.limit = chain.limit ∧
      next.history.length = chain.history.length + 1 := by
  cases waits : chain.pending with
  | none => simp only [receive, waits, reduceCtorEq] at received
  | some hop =>
    obtain ⟨method, url, options⟩ := hop
    cases found : nextHop method url response options with
    | error e =>
      rw [receive_error waits found] at received
      cases received
    | ok leads =>
      cases leads with
      | none =>
        obtain ⟨last, same, ended, _⟩ := receive_last waits found
        cases same.symm.trans received
        exact absurd ended goes
      | some hop =>
        by_cases unlimited : chain.limit = 0
        · obtain ⟨last, same, ended, _⟩ := receive_unfollowed waits found unlimited
          cases same.symm.trans received
          exact absurd ended goes
        · rcases Int.lt_or_le chain.history.length chain.limit with within | spent
          · obtain ⟨more, same, _, limit, grown⟩ := receive_goes waits found unlimited within
            cases same.symm.trans received
            exact ⟨within, limit, grown⟩
          · obtain ⟨_, _, _, raised⟩ := receive_exhausted waits found unlimited spent
            cases raised.symm.trans received

end RedirectChain

namespace Web

variable (web : Web)

/-- One native call: Chromium makes the requests, and asks the observer about every redirect. -/
def nativeStep (s : RequestObserver × RequestLine) : Ending ⊕ (RequestObserver × RequestLine) :=
  let response := web.server s.2
  match nativeLocation response with
  | none => .inl (.response response)
  | some location =>
    match web.resolve s.2.url location with
    | none => .inl .failed
    | some target =>
      let (observer, ops) := s.1.onReceivedRedirect (String.ofList target) (headOf response)
      if NetOp.followRedirect ∈ ops then .inr (observer, ⟨methodAfter s.2.method response.statusCode, target⟩)
      else .inl ((ops.findSome? claimed).elim .failed (Ending.ofCode · response))

section

variable {web} {o : RequestObserver} {line : RequestLine}

theorem nativeStep_last (last : nativeLocation (web.server line) = none) :
    web.nativeStep (o, line) = .inl (.response (web.server line)) := by
  simp only [nativeStep, last]

section

variable {location : Str} (redirects : nativeLocation (web.server line) = some location)

include redirects

theorem nativeStep_refused (refused : web.resolve line.url location = none) :
    web.nativeStep (o, line) = .inl .failed := by
  simp only [nativeStep, redirects, refused]

theorem nativeStep_goes {target : Str} (leads : web.resolve line.url location = some target)
    (within : (o.redirectCount : Int) < o.maxRedirects) :
    web.nativeStep (o, line) = .inr ({ o with redirectCount := o.redirectCount + 1 },
      ⟨methodAfter line.method (web.server line).statusCode, target⟩) := by
  simp only [nativeStep, redirects, leads, redirect_goes within]
  exact if_pos (by simp)

theorem nativeStep_stops {target : Str} (leads : web.resolve line.url location = some target)
    (spent : o.maxRedirects ≤ o.redirectCount) :
    web.nativeStep (o, line) =
      .inl (if o.maxRedirects = 0 then .response (web.server line) else .tooManyRedirects) := by
  obtain ⟨stays, claims⟩ := redirect_stops spent (String.ofList target) (headOf (web.server line))
  simp only [nativeStep, redirects, leads]
  rw [if_neg stays, claims]
  split <;> rfl

end

theorem nativeStep_descends {s t : RequestObserver × RequestLine} (goes : web.nativeStep s = .inr t) :
    (t.1.maxRedirects - t.1.redirectCount).toNat < (s.1.maxRedirects - s.1.redirectCount).toNat := by
  obtain ⟨o, line⟩ := s
  cases redirects : nativeLocation (web.server line) with
  | none =>
    rw [nativeStep_last redirects] at goes
    cases goes
  | some location =>
    cases leads : web.resolve line.url location with
    | none =>
      rw [nativeStep_refused redirects leads] at goes
      cases goes
    | some target =>
      rcases Int.lt_or_le o.redirectCount o.maxRedirects with within | spent
      · rw [nativeStep_goes redirects leads within] at goes
        cases goes
        dsimp only
        omega
      · rw [nativeStep_stops redirects leads spent] at goes
        cases goes

end

def native : Descent (RequestObserver × RequestLine) Ending where
  step := web.nativeStep
  measure s := (s.1.maxRedirects - s.1.redirectCount).toNat
  descends _ _ := nativeStep_descends

def call (maxRedirects : Int) (url : Str) (line : RequestLine) : List RequestLine × Ending :=
  web.native.trace Prod.snd ((Native.Call.initial (String.ofList (cString url)) (int32 maxRedirects)).observer, line)

/-- `_perform`: `start` raises where the URL is not valid. -/
def perform (method url : Str) (maxRedirects : Int) : List RequestLine × Ending :=
  match web.start method url with
  | none => ([], .failed)
  | some line => web.call maxRedirects url line

def Refuses (line : RequestLine) : Prop :=
  ∃ location, nativeLocation (web.server line) = some location ∧ web.resolve line.url location = none

section

variable {web} {url : Str} {line : RequestLine}

end

def ofResult : Except Raised (Response × List Response) → Ending
  | .ok final => .response final.1
  | .error e => .ofRaised e

/-- A hop under way: the URL asked for, what is requested for it, and the chain that waits for it. -/
structure Walking (J : Type) where
  url : Str
  line : RequestLine
  chain : RedirectChain J

/-- The loop of `request` over a jar, from one call that has been started to the next. -/
def walkStep {J : Type} [CookieJar J] (s : Walking J) : Ending ⊕ Walking J :=
  match (web.call 0 s.url s.line).2 with
  | .response response =>
    match s.chain.receive response with
    | .error e => .inl (.ofRaised e)
    | .ok chain =>
      match chain.pending with
      | none => .inl (ofResult chain.result)
      | some (method, url, _) =>
        match web.start method url with
        | none => .inl .failed
        | some line => .inr ⟨url, line, chain⟩
  | ending => .inl ending

theorem walkStep_inr {J : Type} [CookieJar J] {s t : Walking J} (goes : web.walkStep s = .inr t) :
    (∃ method options, t.chain.pending = some (method, t.url, options) ∧ web.start method t.url = some t.line) ∧
      (s.chain.history.length : Int) < s.chain.limit ∧ t.chain.limit = s.chain.limit ∧
      t.chain.history.length = s.chain.history.length + 1 := by
  unfold walkStep at goes
  split at goes
  · split at goes
    · cases goes
    · rename_i received
      split at goes
      · cases goes
      · rename_i waits
        split at goes
        · cases goes
        · rename_i started
          cases goes
          have more := RedirectChain.receive_grows received (by rw [waits]; exact Option.some_ne_none _)
          exact ⟨⟨_, _, waits, started⟩, more⟩
  · cases goes

def walk (J : Type) [CookieJar J] : Descent (Walking J) Ending where
  step := web.walkStep
  measure s := (s.chain.limit - s.chain.history.length).toNat
  descends s t goes := by
    obtain ⟨_, within, limit, grown⟩ := web.walkStep_inr goes
    rw [limit, grown]
    omega

/-- `request` over a jar. -/
def walked {J : Type} [CookieJar J] (method url : Str) (options : RequestOptions) (limit : Int) (cookies : J) :
    List RequestLine × Ending :=
  match web.start method url with
  | none => ([], .failed)
  | some line => (web.walk J).trace Walking.line ⟨url, line, .initial method url options limit cookies⟩

/-- A NUL keeps `next_hop` from the rule that the method on the wire falls under. -/
def Disguised (method : Str) (status : Int) : Prop :=
  '\x00' ∈ Python.upper method ∧
    ((status = 303 ∧ web.sentMethod method = "HEAD".toList) ∨
      ((status = 301 ∨ status = 302) ∧ web.sentMethod method = "POST".toList))

end Web

/-- The limit as the observer has it: the low bits of the one given, 20 where they are negative. -/
def nativeLimit (limit : Int) : Int := if int32 limit < 0 then 20 else int32 limit

/-- What the chain meets after `followed` redirects is taken alike by both: nothing either sees a
    redirect in, a redirect Chromium refuses, any redirect under a limit of zero, a redirect past
    one limit of both, or a redirect of both to what is one URL. -/
inductive Alike (web : Web) (limit : Int) : Nat → Str → Str → RequestLine → Prop where
  | last {followed : Nat} {method url : Str} {line : RequestLine} :
      ¬Located (web.server line) → Alike web limit followed method url line
  | refused {followed : Nat} {method url : Str} {line : RequestLine} :
      web.Refuses line → Alike web limit followed method url line
  | unfollowed {followed : Nat} {method url target : Str} {line : RequestLine} :
      limit = 0 → Resolves url (joinedLocation (web.server line)) target → Alike web limit followed method url line
  | exhausted {followed : Nat} {method url target location there : Str} {line : RequestLine} :
      limit ≠ 0 → limit ≤ followed → 0 < nativeLimit limit → nativeLimit limit ≤ followed →
      Resolves url (joinedLocation (web.server line)) target → nativeLocation (web.server line) = some location →
      web.resolve line.url location = some there → Alike web limit followed method url line
  | follows {followed : Nat} {method url target location there : Str} {line : RequestLine} :
      (followed : Int) < limit → (followed : Int) < nativeLimit limit →
      Resolves url (joinedLocation (web.server line)) target → nativeLocation (web.server line) = some location →
      web.resolve line.url location = some there → web.canonical (cString target) = some there →
      ¬web.Disguised method (web.server line).statusCode →
      Alike web limit (followed + 1) (if becomesGet method (web.server line).statusCode then "GET".toList else method)
        target ⟨methodAfter line.method (web.server line).statusCode, there⟩ →
      Alike web limit followed method url line

theorem Resolves.unique {url location first second : Str} (left : Resolves url location first)
    (right : Resolves url location second) : first = second :=
  Except.ok.inj (left.1.symm.trans right.1)

section

variable {web : Web} {limit : Int} {followed : Nat} {method url target : Str} {line : RequestLine}
  (alike : Alike web limit followed method url line) (accepted : ¬web.Refuses line) (located : Located (web.server line))

include alike accepted located

/-- Below the limit what is alike is a redirect of both, to one URL. -/
theorem Alike.goes (leads : Resolves url (joinedLocation (web.server line)) target) (within : (followed : Int) < limit) :
    (followed : Int) < nativeLimit limit ∧ ∃ location there, nativeLocation (web.server line) = some location ∧
      web.resolve line.url location = some there ∧ web.canonical (cString target) = some there ∧
      ¬web.Disguised method (web.server line).statusCode ∧
      Alike web limit (followed + 1)
        (if becomesGet method (web.server line).statusCode then "GET".toList else method) target
        ⟨methodAfter line.method (web.server line).statusCode, there⟩ := by
  cases alike with
  | last final => exact absurd located final
  | refused refuses => exact absurd refuses accepted
  | unfollowed none _ => omega
  | exhausted _ spent _ _ _ _ _ => omega
  | follows _ withinNative there redirects resolves reads plain next =>
    cases leads.unique there
    exact ⟨withinNative, _, _, redirects, resolves, reads, plain, next⟩

/-- At the limit what is alike is a redirect that the native limit stops too. -/
theorem Alike.stops (limited : limit ≠ 0) (spent : limit ≤ followed) :
    0 < nativeLimit limit ∧ nativeLimit limit ≤ followed ∧ nativeLocation (web.server line) ≠ none := by
  cases alike with
  | last final => exact absurd located final
  | refused refuses => exact absurd refuses accepted
  | unfollowed none _ => exact absurd none limited
  | exhausted _ _ positive spentNative _ redirects _ =>
    exact ⟨positive, spentNative, Option.ne_none_iff_exists'.mpr ⟨_, redirects⟩⟩
  | follows within _ _ _ _ _ _ _ => omega

end

namespace Web

section

variable {web : Web} {J : Type} [CookieJar J] {method url : Str} {line : RequestLine} {options : RequestOptions}
  {chain : RedirectChain J}

section

variable (accepted : ¬web.Refuses line)

include accepted

end

section

variable {limit : Int} {followed : Nat} {target : Str} (waits : chain.pending = some (method, url, options))
  (limited : chain.limit = limit) (grown : chain.history.length = followed) (accepted : ¬web.Refuses line)
  (located : Located (web.server line))

include waits accepted located

variable (leads : Resolves url (joinedLocation (web.server line)) target)

include leads limited

include grown

end

end

end Web

end

section

attribute [local instance] asciiLibrary emptyJar

def answer (statusCode : Int) (headers : List (String × String)) : Response where
  statusCode := statusCode
  reason := ""
  headers := headers
  url := ""
  httpVersion := "h2"
  redirectCount := 0
  fromCache := false
  proxy := "direct"
  metrics := .zero
  content := []

def chosen : RedirectChain Unit where
  pending := some ("GET".toList, "https://a.test/b".toList, .empty)
  limit := 20
  cookies := ()
  history := [answer 300 [("location", "/b")]]
  final := none
  start := "https://a.test/".toList

end

end Cronet.Request
