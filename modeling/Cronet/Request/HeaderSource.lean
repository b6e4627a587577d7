import Cronet.Request.Walk

namespace Cronet.Request

open Cronet.Session (Response)
open Cronet.Url (Str Python origin urljoin)

/-- What a caller gives for headers. An iterator holds what is still to come, and a walk takes all of it. -/
inductive HeaderSource where
  | absent
  | mapping (pairs : List (Str × Str))
  | sequence (pairs : List (Str × Str))
  | iterator (pairs : List (Str × Str))
  deriving DecidableEq

namespace HeaderSource

def pairs : HeaderSource → List (Str × Str)
  | .absent => []
  | .mapping pairs | .sequence pairs | .iterator pairs => pairs

def walked : HeaderSource → HeaderSource
  | .iterator _ => .iterator []
  | source => source

def Lasting : HeaderSource → Prop
  | .iterator pairs => pairs = []
  | _ => True

theorem walked_pairs {source : HeaderSource} (lasting : source.Lasting) : source.walked.pairs = source.pairs := by
  cases source with
  | iterator pairs => exact lasting.symm
  | _ => rfl

theorem walked_lasting (source : HeaderSource) : source.walked.Lasting := by
  cases source <;> first | rfl | exact trivial

theorem spent {source : HeaderSource} (once : ¬source.Lasting) : source.walked.pairs = [] ∧ source.pairs ≠ [] := by
  cases source with
  | iterator pairs => exact ⟨rfl, once⟩
  | _ => exact absurd trivial once

end HeaderSource

section

variable [Library]

/-- `check_headers`, and what its walk leaves. -/
def HeaderSource.check (headers : HeaderSource) (source : String) : Except Raised HeaderSource := do
  checkHeaders (some headers.pairs) source
  return headers.walked

def sessionHeaders (source : HeaderSource) : Except Raised (Headers Str) := do
  let left ← source.check "the session"
  return ⟨left.pairs⟩

structure GivenOptions where
  source : HeaderSource
  options : RequestOptions

namespace GivenOptions

def seen (given : GivenOptions) : RequestOptions := { given.options with headers := some given.source.pairs }

def walked (given : GivenOptions) : GivenOptions := { given with source := given.source.walked }

def target (url : Str) (given : GivenOptions) : Except Raised (Str × GivenOptions) := do
  let left ← given.source.check "a request"
  let url ← checkedUrl url
  let url ← withQuery url given.options.query
  return (url, { given with source := left })

def withoutBody (given : GivenOptions) : GivenOptions := { given with options := Request.withoutBody given.options }

/-- `next_hop` walks the headers to look for a credential. -/
def withoutCredentials (given : GivenOptions) : GivenOptions :=
  let headers := Headers.mk given.source.pairs
  { options := { given.options with basicAuth := none, bearerAuth := none }
    source :=
      if headers.contains "authorization".toList || headers.contains "cookie".toList then
        .sequence (headers.pairs.filter fun p => !isCredential p.1)
      else given.source.walked }

def nextHop (method url : Str) (response : Response) (given : GivenOptions) :
    Except Raised (Option (Str × Str × GivenOptions)) :=
  let location := ((responseHeaders response).get? "location".toList).getD []
  if location = [] ∨ ¬(300 ≤ response.statusCode ∧ response.statusCode < 400) then .ok none
  else do
    let target ← (urljoin url location).mapError .url
    let get := becomesGet method response.statusCode
    let carried := if get then given.withoutBody else given
    let here ← (origin url).mapError .url
    let there ← (origin target).mapError .url
    let carried := if here ≠ there then carried.withoutCredentials else carried
    return some (if get then "GET".toList else method, target, carried)

end GivenOptions

variable {J : Type} [CookieJar J]

/-- A request or a stream under way with the caller's own headers: `chained` is whether the session
    walks its redirects. -/
structure HeaderWalk (J : Type) where
  pending : Option (Str × Str × GivenOptions)
  limit : Int
  cookies : Option J
  chained : Bool
  hops : Nat
  start : Str
  built : List TracedCall
  waiting : Bool

namespace HeaderWalk

def initial (method url : Str) (given : GivenOptions) (limit : Int) (cookies : Option J) (chained : Bool) :
    HeaderWalk J :=
  ⟨some (method, url, given), limit, cookies, chained, 0, url, [], false⟩

def receive (w : HeaderWalk J) (response : Response) : Except Raised (HeaderWalk J) :=
  match w.pending with
  | none => .error (.runtimeError "this redirect chain has already finished")
  | some (method, url, given) =>
    if w.chained = false then .ok { w with pending := none, waiting := false }
    else do
      let cookies := w.cookies.map (CookieJar.store · url (responseHeaders response))
      let hop ← given.nextHop method url response
      match hop with
      | none => return { w with cookies, pending := none, waiting := false }
      | some hop =>
        if w.limit = 0 then return { w with cookies, pending := none, waiting := false }
        else if w.limit ≤ w.hops then
          .error (.cronet (.requestError .tooManyRedirects
            ("more than " ++ toString w.limit ++ " redirects from " ++ String.ofList w.start)
            Native.CRONET_ERROR_TOO_MANY_REDIRECTS (String.ofList w.start)))
        else return { w with cookies, hops := w.hops + 1, pending := some hop, waiting := false }

def step (defaults : Headers Str) (w : HeaderWalk J) : WalkEvent (Option J) → Option (HeaderWalk J)
  | .build boundary =>
    match w.waiting, w.pending with
    | false, some (method, url, given) =>
      (traceCall method url given.seen defaults w.cookies (if w.chained then 0 else w.limit) boundary).toOption.map
        fun call =>
          { w with pending := some (method, url, given.walked), built := w.built ++ [call], waiting := true }
    | _, _ => none
  | .receive response => if w.waiting then (w.receive response).toOption else none
  | .share cookies => some { w with cookies }

def machine (defaults : Headers Str) : Machine (HeaderWalk J) (WalkEvent (Option J)) := ⟨step defaults⟩

end HeaderWalk

def Unowned (pairs : List (Str × Str)) : Prop := ∀ p ∈ pairs, STACK_OWNED_HEADERS.lookup (Python.lower p.1) = none

/-- A call has the request's pairs, and nothing of the session's under their names. -/
def Delivers (pairs : List (Str × Str)) (call : TracedCall) : Prop :=
  (∀ p ∈ pairs, (p.1, Source.request, p.2) ∈ call.traced.pairs) ∧
    ∀ c ∈ call.traced.pairs, c.2.1 = .session → (Headers.mk pairs).contains c.1 = false

/-- What a request's headers come to, over the calls made for it up to the first hop elsewhere. -/
structure RequestKeeps (pairs : List (Str × Str)) (start : Str) (built : List TracedCall) : Prop where
  checked : Unowned pairs
  delivered : ∀ before call after, built = before ++ call :: after → Walk.Home start (before ++ [call]) →
    Delivers pairs call

structure SessionKeeps (J : Type) [CookieJar J] (pairs : List (Str × Str)) (headers : Headers Str) : Prop where
  checked : Unowned pairs
  delivered : ∀ method url options (cookies : Option J) limit boundary call,
    traceCall method url options headers cookies limit boundary = .ok call → ∀ p ∈ pairs,
      (p.1, Source.session, p.2) ∈ call.traced.pairs ∨
        ∃ c ∈ call.traced.pairs, c.2.1 = .request ∧ Python.lower c.1 = Python.lower p.1

omit [Library] in
theorem forM_ok {α : Type} {f : α → Except Raised Unit} {xs : List α} (ok : xs.forM f = .ok ()) :
    ∀ x ∈ xs, f x = .ok () := by
  induction xs with
  | nil => exact fun _ member => absurd member List.not_mem_nil
  | cons x xs ih =>
    obtain ⟨_, first, rest⟩ := Checked.bind_ok ok
    intro y member
    rcases List.mem_cons.mp member with rfl | later
    · exact first
    · exact ih rest y later

theorem checkHeaders_ok {pairs : List (Str × Str)} {source : String}
    (ok : checkHeaders (some pairs) source = .ok ()) : Unowned pairs := by
  intro p member
  have passed := forM_ok ok p member
  dsimp only at passed
  split at passed
  · cases passed
  · assumption

theorem check_ok {headers left : HeaderSource} {source : String} (ok : headers.check source = .ok left) :
    Unowned headers.pairs ∧ left = headers.walked := by
  obtain ⟨_, checked, done⟩ := Checked.bind_ok ok
  cases done
  exact ⟨checkHeaders_ok checked, rfl⟩

theorem sessionHeaders_ok {source : HeaderSource} {headers : Headers Str} (made : sessionHeaders source = .ok headers) :
    Unowned source.pairs ∧ headers = ⟨source.walked.pairs⟩ := by
  obtain ⟨left, checked, done⟩ := Checked.bind_ok made
  obtain ⟨unowned, rfl⟩ := check_ok checked
  cases done
  exact ⟨unowned, rfl⟩

theorem GivenOptions.target_ok {given sent : GivenOptions} {url target : Str} (accepted : given.target url = .ok (target, sent)) :
    Unowned given.source.pairs ∧ sent = given.walked := by
  obtain ⟨left, checked, accepted⟩ := Checked.bind_ok accepted
  obtain ⟨unowned, rfl⟩ := check_ok checked
  obtain ⟨_, _, accepted⟩ := Checked.bind_ok accepted
  obtain ⟨_, _, accepted⟩ := Checked.bind_ok accepted
  cases accepted
  exact ⟨unowned, rfl⟩

theorem GivenOptions.nextHop_some {method url : Str} {response : Response} {given : GivenOptions}
    {hop : Str × Str × GivenOptions} (found : given.nextHop method url response = .ok (some hop)) :
    ∃ here there, origin url = .ok here ∧ origin hop.2.1 = .ok there ∧ (here = there → hop.2.2.source = given.source) := by
  unfold GivenOptions.nextHop at found
  dsimp only at found
  split at found
  · cases found
  · obtain ⟨target, joined, found⟩ := Checked.bind_ok found
    obtain ⟨here, left, found⟩ := Checked.bind_ok found
    obtain ⟨there, entered, found⟩ := Checked.bind_ok found
    cases found
    refine ⟨here, there, mapError_ok left, mapError_ok entered, fun same => ?_⟩
    rw [if_neg (not_not_intro same)]
    split <;> rfl

section

variable {method url boundary : Str} {options : RequestOptions} {given : GivenOptions} {headers : Headers Str}
  {cookies : Option J} {limit : Int} {call : TracedCall}

theorem home_first (first : call.settings.url = url) : Walk.Home url ([] ++ [call]) := by
  intro other member
  rw [List.nil_append, List.mem_singleton] at member
  rw [member, first]

theorem mem_request (built : traceCall method url given.seen headers cookies limit boundary = .ok call) {name value : Str} :
    (name, Source.request, value) ∈ call.traced.pairs ↔ (name, value) ∈ given.source.pairs := by
  obtain ⟨_, _, _, _, _, traced⟩ := traceCall_ok built
  rw [traced, mem_traceHeaders]
  rfl

theorem delivers_seen (built : traceCall method url given.seen headers cookies limit boundary = .ok call) :
    Delivers given.source.pairs call := by
  refine ⟨fun p member => (mem_request built).mpr member, ?_⟩
  intro ⟨name, source, value⟩ member session
  obtain ⟨_, _, _, _, _, traced⟩ := traceCall_ok built
  rw [traced, mem_traceHeaders] at member
  cases session
  exact member.2

theorem session_delivered (built : traceCall method url options headers cookies limit boundary = .ok call)
    {p : Str × Str} (member : p ∈ headers.pairs) :
    (p.1, Source.session, p.2) ∈ call.traced.pairs ∨
      ∃ c ∈ call.traced.pairs, c.2.1 = .request ∧ Python.lower c.1 = Python.lower p.1 := by
  obtain ⟨_, _, _, _, _, traced⟩ := traceCall_ok built
  rw [traced]
  cases spoken : (Headers.mk (options.headers.getD [])).contains p.1 with
  | false => exact .inl (mem_traceHeaders.mpr ⟨member, spoken⟩)
  | true =>
    rw [Headers.contains_iff, List.mem_map] at spoken
    obtain ⟨q, own, same⟩ := spoken
    exact .inr ⟨(q.1, .request, q.2), mem_traceHeaders.mpr own, rfl, same⟩

theorem traceCall_empty (J : Type) [CookieJar J] (method url boundary : Str) (headers : Headers Str) (limit : Int) :
    ∃ call, traceCall method url .empty headers (none : Option J) limit boundary = .ok call ∧
    ∀ c ∈ call.traced.pairs, c.2.1 = .session ∧ (c.1, c.2.2) ∈ headers.pairs := by
  refine ⟨_, rfl, fun c member => ?_⟩
  obtain ⟨name, source, value⟩ := c
  have placed := mem_traceHeaders.mp member
  cases source with
  | request => cases placed
  | session => exact ⟨rfl, placed.1⟩
  | auth => cases placed.2.1
  | implied => cases placed.2.1
  | jar _ => cases placed.2.2.1

end

theorem session_keeps_iff {source : HeaderSource} {headers : Headers Str} (made : sessionHeaders source = .ok headers) :
    SessionKeeps J source.pairs headers ↔ source.Lasting := by
  obtain ⟨unowned, rfl⟩ := sessionHeaders_ok made
  constructor
  · intro keeps
    by_contra once
    obtain ⟨left, nonempty⟩ := HeaderSource.spent once
    obtain ⟨p, rest, split⟩ := List.exists_cons_of_ne_nil nonempty
    obtain ⟨call, built, plain⟩ := traceCall_empty J [] [] [] ⟨source.walked.pairs⟩ 0
    rcases keeps.delivered _ _ _ none _ _ call built p (split ▸ List.mem_cons_self) with own | ⟨c, member, request, _⟩
    · have there := (plain _ own).2
      rw [show (Headers.mk source.walked.pairs).pairs = [] from left] at there
      cases there
    · have session := (plain c member).1
      rw [request] at session
      cases session
  · intro lasting
    refine ⟨unowned, fun method url options cookies limit boundary call built p member => ?_⟩
    exact session_delivered built ((HeaderSource.walked_pairs lasting).symm ▸ member)

namespace HeaderWalk

variable {defaults : Headers Str} {w next : HeaderWalk J} {start : Str} {pairs : List (Str × Str)}

theorem step_build {boundary : Str} (stepped : w.step defaults (.build boundary) = some next) :
    ∃ method url given limit call, w.waiting = false ∧ w.pending = some (method, url, given) ∧
      traceCall method url given.seen defaults w.cookies limit boundary = .ok call ∧
      next = { w with pending := some (method, url, given.walked), built := w.built ++ [call], waiting := true } := by
  simp only [step] at stepped
  split at stepped
  · rename_i method url given idle pending
    obtain ⟨call, traced, rfl⟩ := Option.map_eq_some_iff.mp stepped
    exact ⟨method, url, given, _, call, idle, pending, ok_of_toOption traced, rfl⟩
  · cases stepped

theorem receive_ok {response : Response} (received : w.receive response = .ok next) :
    next.built = w.built ∧ next.waiting = false ∧ ∃ method url given, w.pending = some (method, url, given) ∧
      (next.pending = none ∨ ∃ hop, next.pending = some hop ∧ given.nextHop method url response = .ok (some hop)) := by
  unfold receive at received
  split at received
  · cases received
  · rename_i method url given waiting
    split at received
    · cases received
      exact ⟨rfl, rfl, method, url, given, waiting, .inl rfl⟩
    · obtain ⟨hop, hopped, received⟩ := Checked.bind_ok received
      cases hop with
      | none =>
        cases received
        exact ⟨rfl, rfl, method, url, given, waiting, .inl rfl⟩
      | some hop =>
        dsimp only at received
        split at received
        · cases received
          exact ⟨rfl, rfl, method, url, given, waiting, .inl rfl⟩
        · split at received
          · cases received
          · cases received
            exact ⟨rfl, rfl, method, url, given, waiting, .inr ⟨hop, rfl, hopped⟩⟩

theorem step_receive {response : Response} (stepped : w.step defaults (.receive response) = some next) :
    w.waiting = true ∧ w.receive response = .ok next := by
  simp only [step] at stepped
  split at stepped
  · exact ⟨‹_›, ok_of_toOption stepped⟩
  · cases stepped

structure Kept (start : Str) (pairs : List (Str × Str)) (w : HeaderWalk J) : Prop where
  pending : ∀ method url given, w.pending = some (method, url, given) → Walk.Home start w.built →
    origin url = origin start → given.source.pairs = pairs ∧ given.source.Lasting
  awaited : w.waiting = true → ∀ method url given, w.pending = some (method, url, given) →
    ∃ call ∈ w.built, call.settings.url = url
  delivered : ∀ before call after, w.built = before ++ call :: after → Walk.Home start (before ++ [call]) →
    Delivers pairs call

structure Emptied (start : Str) (w : HeaderWalk J) : Prop where
  begun : w.built = [] → w.waiting = false ∧
    ∀ method url given, w.pending = some (method, url, given) → url = start ∧ given.source.pairs = []
  first : ∀ call ∈ w.built.head?, call.settings.url = start ∧ ∀ c ∈ call.traced.pairs, c.2.1 ≠ .request

theorem Kept.build {method url boundary : Str} {given : GivenOptions} {limit : Int} {call : TracedCall}
    (kept : Kept start pairs w) (pending : w.pending = some (method, url, given))
    (built : traceCall method url given.seen defaults w.cookies limit boundary = .ok call) :
    Kept start pairs { w with pending := some (method, url, given.walked), built := w.built ++ [call], waiting := true } := by
  have sameUrl := (traceCall_ok built).1
  have home : Walk.Home start (w.built ++ [call]) ↔ Walk.Home start w.built ∧ origin url = origin start := by
    simp only [Walk.Home, List.mem_append, List.mem_singleton, or_imp, forall_and, forall_eq, sameUrl]
  refine ⟨?_, ?_, ?_⟩
  · intro method' url' given' same stays here
    cases same
    obtain ⟨same, lasting⟩ := kept.pending method url given pending (home.mp stays).1 here
    exact ⟨(HeaderSource.walked_pairs lasting).trans same, HeaderSource.walked_lasting _⟩
  · intro _ method' url' given' same
    cases same
    exact ⟨call, List.mem_append_right _ List.mem_cons_self, sameUrl⟩
  · intro before last after split stays
    rcases List.eq_nil_or_concat after with rfl | ⟨front, final, rfl⟩
    · obtain ⟨rfl, same⟩ := List.append_inj' split rfl
      cases same
      obtain ⟨stays, here⟩ := home.mp stays
      rw [← (kept.pending method url given pending stays here).1]
      exact delivers_seen built
    · have shorter : w.built ++ [call] = (before ++ last :: front) ++ [final] := by simpa using split
      exact kept.delivered before last front (List.append_inj' shorter rfl).1 stays

theorem Kept.receive {response : Response} (kept : Kept start pairs w) (waiting : w.waiting = true)
    (received : w.receive response = .ok next) : Kept start pairs next := by
  obtain ⟨built, idle, method, url, given, pending, after⟩ := receive_ok received
  obtain ⟨last, member, lastUrl⟩ := kept.awaited waiting method url given pending
  refine ⟨?_, fun waits => ?_, built ▸ kept.delivered⟩
  · intro method' url' given' same stays arrives
    rw [built] at stays
    rcases after with finished | ⟨hop, hopped, found⟩
    · rw [finished] at same
      cases same
    · rw [hopped] at same
      cases same
      obtain ⟨here, there, left, entered, whole⟩ := GivenOptions.nextHop_some found
      have home : origin url = origin start := lastUrl ▸ stays last member
      have within : here = there := Except.ok.inj (left.symm.trans (home.trans (arrives.symm.trans entered)))
      rw [whole within]
      exact kept.pending method url given pending stays home
  · rw [idle] at waits
    cases waits

theorem Kept.step {event : WalkEvent (Option J)} (kept : Kept start pairs w) (stepped : w.step defaults event = some next) :
    Kept start pairs next := by
  cases event with
  | build boundary =>
    obtain ⟨method, url, given, limit, call, _, pending, built, rfl⟩ := step_build stepped
    exact kept.build pending built
  | receive response =>
    obtain ⟨waiting, received⟩ := step_receive stepped
    exact kept.receive waiting received
  | share cookies =>
    cases stepped
    exact ⟨kept.pending, kept.awaited, kept.delivered⟩

theorem Emptied.step {event : WalkEvent (Option J)} (empty : Emptied start w) (stepped : w.step defaults event = some next) :
    Emptied start next := by
  cases event with
  | build boundary =>
    obtain ⟨method, url, given, limit, call, _, pending, built, rfl⟩ := step_build stepped
    refine ⟨fun none => absurd none (List.append_ne_nil_of_right_ne_nil _ (List.cons_ne_nil _ _)), fun first head => ?_⟩
    cases before : w.built with
    | nil =>
      obtain ⟨rfl, bare⟩ := (empty.begun before).2 method url given pending
      simp only [before, List.nil_append, List.head?_cons, Option.mem_def, Option.some.injEq] at head
      subst head
      refine ⟨(traceCall_ok built).1, fun ⟨name, source, value⟩ member request => ?_⟩
      cases request
      rw [mem_request built, bare] at member
      cases member
    | cons _ _ =>
      rw [before] at head
      exact empty.first first (by rw [before]; exact head)
  | receive response =>
    obtain ⟨waiting, received⟩ := step_receive stepped
    obtain ⟨built, _⟩ := receive_ok received
    refine ⟨fun none => ?_, built ▸ empty.first⟩
    rw [(empty.begun (built ▸ none)).1] at waiting
    cases waiting
  | share cookies =>
    cases stepped
    exact ⟨empty.begun, empty.first⟩

end HeaderWalk

/-- A session's headers, and a request's along the calls made for it, come to what the caller gave
    exactly if they can be walked again. -/
theorem headers_kept_iff {source : HeaderSource} {headers : Headers Str} {given sent : GivenOptions}
    {method url target : Str} {limit : Int} {cookies : Option J} {chained : Bool} {events : List (WalkEvent (Option J))}
    {w : HeaderWalk J} (made : sessionHeaders source = .ok headers) (accepted : given.target url = .ok (target, sent))
    (ran : (HeaderWalk.machine headers).run (.initial method target sent limit cookies chained) events = some w)
    (calls : w.built ≠ []) :
    (SessionKeeps J source.pairs headers ↔ source.Lasting) ∧
      (RequestKeeps given.source.pairs target w.built ↔ given.source.Lasting) := by
  refine ⟨session_keeps_iff made, ?_⟩
  obtain ⟨unowned, rfl⟩ := GivenOptions.target_ok accepted
  constructor
  · intro keeps
    by_contra once
    obtain ⟨left, nonempty⟩ := HeaderSource.spent once
    have empty : HeaderWalk.Emptied target w := by
      refine Machine.invariant (HeaderWalk.Emptied target) ⟨fun _ => ⟨rfl, ?_⟩, (fun _ none => by cases none)⟩
        (fun _ _ _ empty stepped => empty.step stepped) ran
      intro method' url' given' same
      cases same
      exact ⟨rfl, left⟩
    obtain ⟨first, rest, split⟩ := List.exists_cons_of_ne_nil calls
    obtain ⟨here, none⟩ := empty.first first (by rw [split]; rfl)
    obtain ⟨p, others, listed⟩ := List.exists_cons_of_ne_nil nonempty
    have there := (keeps.delivered [] first rest split (home_first here)).1 p (listed ▸ List.mem_cons_self)
    exact none _ there rfl
  · intro lasting
    have kept : HeaderWalk.Kept target given.source.pairs w := by
      refine Machine.invariant (HeaderWalk.Kept target given.source.pairs)
        ⟨?_, (fun waits => by cases waits), fun before call after split => ?_⟩
        (fun _ _ _ kept stepped => kept.step stepped) ran
      · intro method' url' given' same _ _
        cases same
        exact ⟨HeaderSource.walked_pairs lasting, HeaderSource.walked_lasting _⟩
      · cases before <;> cases split
    exact ⟨unowned, kept.delivered⟩

end

section

attribute [local instance] asciiLibrary emptyJar

def apiKey : List (Str × Str) := [("x-api-key".toList, "k".toList)]

def moved : Response where
  statusCode := 302
  reason := "Found"
  headers := [("location", "/b")]
  url := "https://a.test/"
  httpVersion := "h2"
  redirectCount := 0
  fromCache := false
  proxy := "direct"
  metrics := .zero
  content := []

/-- A mapping for the session and a list for the request go out with both calls of a redirect within the origin. -/
theorem headers_kept_list :
    ∃ w : HeaderWalk Unit,
      (HeaderWalk.machine ⟨apiKey⟩).run
        (.initial "GET".toList "https://a.test/".toList ⟨.sequence apiKey, .empty⟩ 20 (some ()) true)
        [.build [], .receive moved, .build []] = some w ∧
      w.built.map (·.settings.url) = ["https://a.test/".toList, "https://a.test/b".toList] ∧
      RequestKeeps apiKey "https://a.test/".toList w.built ∧ SessionKeeps Unit apiKey ⟨apiKey⟩ := by
  have made : sessionHeaders (.mapping apiKey) = .ok ⟨apiKey⟩ := rfl
  have accepted : GivenOptions.target "https://a.test/".toList ⟨.sequence apiKey, .empty⟩ =
      .ok ("https://a.test/".toList, ⟨.sequence apiKey, .empty⟩) := rfl
  have ran : ∃ w : HeaderWalk Unit, (HeaderWalk.machine ⟨apiKey⟩).run
      (.initial "GET".toList "https://a.test/".toList ⟨.sequence apiKey, .empty⟩ 20 (some ()) true)
      [.build [], .receive moved, .build []] = some w ∧
      w.built.map (·.settings.url) = ["https://a.test/".toList, "https://a.test/b".toList] ∧ w.built ≠ [] :=
    ⟨_, rfl, rfl, List.cons_ne_nil _ _⟩
  obtain ⟨w, ran, urls, calls⟩ := ran
  have kept := headers_kept_iff made accepted ran calls
  exact ⟨w, ran, urls, kept.2.mpr trivial, kept.1.mpr trivial⟩

/-- An iterator's headers are checked and never sent. -/
theorem iterator_dropped :
    sessionHeaders (.iterator apiKey) = .ok ⟨[]⟩ ∧ ¬SessionKeeps Unit apiKey ⟨[]⟩ ∧
      GivenOptions.target "https://a.test/".toList ⟨.iterator apiKey, .empty⟩ =
        .ok ("https://a.test/".toList, ⟨.iterator [], .empty⟩) ∧
      ∃ w : HeaderWalk Unit,
        (HeaderWalk.machine ⟨[]⟩).run
          (.initial "GET".toList "https://a.test/".toList ⟨.iterator [], .empty⟩ 20 none false) [.build []] = some w ∧
        ¬RequestKeeps apiKey "https://a.test/".toList w.built := by
  have made : sessionHeaders (.iterator apiKey) = .ok ⟨[]⟩ := rfl
  refine ⟨made, fun keeps => ?_, rfl, _, rfl, fun keeps => ?_⟩
  · have lasting := (session_keeps_iff made).mp keeps
    cases lasting
  · have there := (keeps.delivered [] _ [] rfl (home_first rfl)).1 _ List.mem_cons_self
    cases there

end

end Cronet.Request
