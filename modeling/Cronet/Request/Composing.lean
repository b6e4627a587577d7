import Cronet.Request.HeaderSource

namespace Cronet.Request

open Cronet.Session (Response)
open Cronet.Url (Str Python origin)

section

variable [Library]

def ADDITIONS : List Str := ["content-type".toList, "authorization".toList, "cookie".toList]

def plainPairs (pairs : List (Str × Str)) : List (Str × Str) := pairs.filter fun p => !isCredential p.1

inductive LeftOver (source : HeaderSource) : List (Str × Str) → Prop where
  | whole : LeftOver source source.pairs
  | plain : LeftOver source (plainPairs source.pairs)
  | spent (once : ¬source.Lasting) : LeftOver source []

/-- The merged headers, and behind them at most one addition under each of the names nobody spoke for. -/
structure Composed (own : List (Str × Str)) (session : Headers Str) (headers : List (Str × Str)) : Prop where
  unowned : ∀ p ∈ headers, Python.lower p.1 ∉ STACK_OWNED_HEADERS.map Prod.fst
  added : ∃ added, headers = ((Headers.mk own).withDefaults session).pairs ++ added ∧
    (added.map Prod.fst).Sublist ADDITIONS ∧
    ∀ p ∈ added, ((Headers.mk own).withDefaults session).contains p.1 = false

omit [Library] in
theorem not_mem_keys_of_lookup {α β : Type} [BEq α] [LawfulBEq α] {table : List (α × β)} {a : α}
    (missing : table.lookup a = none) : a ∉ table.map Prod.fst := by
  rw [List.lookup_eq_none_iff] at missing
  rintro member
  obtain ⟨p, listed, rfl⟩ := List.mem_map.mp member
  simpa using missing p listed

theorem LeftOver.subset {source : HeaderSource} {own : List (Str × Str)} (left : LeftOver source own) :
    own ⊆ source.pairs := by
  cases left with
  | whole => exact List.Subset.refl _
  | plain => exact List.filter_subset_self _
  | spent => exact List.nil_subset _

theorem LeftOver.filtered {source : HeaderSource} {own : List (Str × Str)} (left : LeftOver source own) :
    LeftOver source (plainPairs own) := by
  cases left with
  | whole => exact .plain
  | plain =>
    have twice : plainPairs (plainPairs source.pairs) = plainPairs source.pairs := by simp [plainPairs]
    rw [twice]
    exact .plain
  | spent once => exact .spent once

theorem added_names {β : Type} (merged : Headers β) (name : Str) (value : Option β) :
    ((addition merged name value).map Prod.fst).Sublist [name] := by
  unfold addition
  split
  · exact List.nil_sublist _
  · cases value with
    | none => exact List.nil_sublist _
    | some v => exact List.Sublist.refl _

theorem addition_unowned : ∀ name ∈ ADDITIONS, Python.lower name ∉ STACK_OWNED_HEADERS.map Prod.fst := by
  have ascii : ∀ name ∈ ADDITIONS, Url.isascii name = true ∧ name.map Char.toLower ∉ STACK_OWNED_HEADERS.map Prod.fst := by
    decide
  intro name member
  rw [Python.lower_ascii (ascii name member).1]
  exact (ascii name member).2

theorem composed_of_callHeaders {own : List (Str × Str)} {session : Headers Str}
    {impliedType credentials cookie : Option Str} (checkedOwn : Unowned own) (checkedSession : Unowned session.pairs) :
    Composed own session (callHeaders ⟨own⟩ session impliedType credentials cookie).pairs := by
  have names : (((addition ((Headers.mk own).withDefaults session) "content-type".toList impliedType ++
      addition ((Headers.mk own).withDefaults session) "authorization".toList credentials) ++
      addition ((Headers.mk own).withDefaults session) "cookie".toList cookie).map Prod.fst).Sublist ADDITIONS := by
    rw [List.map_append, List.map_append]
    exact ((added_names _ _ _).append (added_names _ _ _)).append (added_names _ _ _)
  refine ⟨?_, _, rfl, names, ?_⟩
  · intro p member
    rcases List.mem_append.mp member with merged | added
    · rcases Headers.mem_withDefaults.mp merged with request | ⟨default, _⟩
      · exact not_mem_keys_of_lookup (checkedOwn p request)
      · exact not_mem_keys_of_lookup (checkedSession p default)
    · exact addition_unowned p.1 (names.subset (List.mem_map_of_mem added))
  · intro p member
    simp only [List.mem_append, mem_addition] at member
    rcases member with (⟨free, same, _⟩ | ⟨free, same, _⟩) | ⟨free, same, _⟩
    all_goals rwa [same]

theorem traceCall_composed {J : Type} [CookieJar J] {method url boundary : Str} {options : RequestOptions}
    {defaults : Headers Str} {cookies : Option J} {limit : Int} {call : TracedCall}
    (built : traceCall method url options defaults cookies limit boundary = .ok call)
    (checkedOwn : Unowned (options.headers.getD [])) (checkedSession : Unowned defaults.pairs) :
    Composed (options.headers.getD []) defaults call.settings.headers := by
  obtain ⟨_, _, impliedType, credentials, _, traced⟩ := traceCall_ok built
  rw [call.erases, traced, traceHeaders_erased]
  exact composed_of_callHeaders checkedOwn checkedSession

theorem GivenOptions.nextHop_source {method url : Str} {response : Response} {given : GivenOptions}
    {hop : Str × Str × GivenOptions} (found : given.nextHop method url response = .ok (some hop)) :
    hop.2.2.source = given.source ∨ hop.2.2.source = given.withoutCredentials.source := by
  unfold GivenOptions.nextHop at found
  dsimp only at found
  split at found
  · cases found
  · obtain ⟨target, _, found⟩ := Checked.bind_ok found
    obtain ⟨here, _, found⟩ := Checked.bind_ok found
    obtain ⟨there, _, found⟩ := Checked.bind_ok found
    cases found
    dsimp only
    split
    · right
      split <;> rfl
    · left
      split <;> rfl

variable {J : Type} [CookieJar J]

namespace HeaderWalk

/-- Every call so far is composed of what was left of the caller's headers when it was built. -/
structure Composing (source : HeaderSource) (session : Headers Str) (w : HeaderWalk J) : Prop where
  pending : ∀ method url given, w.pending = some (method, url, given) → LeftOver source given.source.pairs ∧
    (source.Lasting → given.source.Lasting)
  built : ∀ call ∈ w.built, ∃ own, LeftOver source own ∧ Composed own session call.settings.headers

theorem leftOver_walked {source current : HeaderSource} (left : LeftOver source current.pairs)
    (lasting : source.Lasting → current.Lasting) : LeftOver source current.walked.pairs := by
  by_cases lasts : current.Lasting
  · rw [HeaderSource.walked_pairs lasts]
    exact left
  · rw [(HeaderSource.spent lasts).1]
    exact .spent fun whole => lasts (lasting whole)

theorem leftOver_withoutCredentials {source : HeaderSource} {given : GivenOptions}
    (left : LeftOver source given.source.pairs) (lasting : source.Lasting → given.source.Lasting) :
    LeftOver source given.withoutCredentials.source.pairs ∧ given.withoutCredentials.source.Lasting := by
  unfold GivenOptions.withoutCredentials
  dsimp only
  split
  · exact ⟨left.filtered, trivial⟩
  · exact ⟨leftOver_walked left lasting, HeaderSource.walked_lasting _⟩

theorem Composing.step {source : HeaderSource} {session : Headers Str} {w next : HeaderWalk J}
    {event : WalkEvent (Option J)} (checkedRequest : Unowned source.pairs) (checkedSession : Unowned session.pairs)
    (inv : Composing source session w) (stepped : w.step session event = some next) : Composing source session next := by
  cases event with
  | build boundary =>
    obtain ⟨method, url, given, limit, call, _, pending, built, rfl⟩ := step_build stepped
    obtain ⟨left, lasting⟩ := inv.pending method url given pending
    have composed : Composed given.source.pairs session call.settings.headers :=
      traceCall_composed built (fun p member => checkedRequest p (left.subset member)) checkedSession
    constructor
    · intro method' url' given' same
      cases same
      exact ⟨leftOver_walked left lasting, fun _ => HeaderSource.walked_lasting _⟩
    · intro other member
      rcases List.mem_append.mp member with earlier | new
      · exact inv.built other earlier
      · rw [List.mem_singleton.mp new]
        exact ⟨_, left, composed⟩
  | receive response =>
    obtain ⟨_, received⟩ := step_receive stepped
    obtain ⟨built, _, method, url, given, pending, after⟩ := receive_ok received
    obtain ⟨left, lasting⟩ := inv.pending method url given pending
    refine ⟨?_, built ▸ inv.built⟩
    intro method' url' given' same
    rcases after with finished | ⟨hop, hopped, found⟩
    · rw [finished] at same
      cases same
    · rw [hopped] at same
      cases same
      have stripped := leftOver_withoutCredentials left lasting
      rcases GivenOptions.nextHop_source found with kept | dropped
      · rw [kept]
        exact ⟨left, lasting⟩
      · rw [dropped]
        exact ⟨stripped.1, fun _ => stripped.2⟩
  | share cookies =>
    cases stepped
    exact ⟨inv.pending, inv.built⟩

end HeaderWalk

/-- Whatever a chain of redirects and its jar make of them, no call has a header of the stack's. -/
theorem calls_composed {source : HeaderSource} {session : Headers Str} {given sent : GivenOptions}
    {method url target : Str} {limit : Int} {cookies : Option J} {chained : Bool} {events : List (WalkEvent (Option J))}
    {w : HeaderWalk J} (made : sessionHeaders source = .ok session) (accepted : given.target url = .ok (target, sent))
    (ran : (HeaderWalk.machine session).run (.initial method target sent limit cookies chained) events = some w) :
    ∀ call ∈ w.built, ∃ own, LeftOver given.source own ∧ Composed own session call.settings.headers := by
  obtain ⟨checkedSession, rfl⟩ := sessionHeaders_ok made
  obtain ⟨checkedRequest, rfl⟩ := GivenOptions.target_ok accepted
  have walked : Unowned source.walked.pairs := by
    intro p member
    by_cases lasting : source.Lasting
    · exact checkedSession p (HeaderSource.walked_pairs lasting ▸ member)
    · rw [(HeaderSource.spent lasting).1] at member
      cases member
  have initial : HeaderWalk.Composing given.source ⟨source.walked.pairs⟩
      (HeaderWalk.initial method target given.walked limit cookies chained) := by
    refine ⟨?_, fun call member => absurd member List.not_mem_nil⟩
    intro method' url' given' same
    cases same
    exact ⟨HeaderWalk.leftOver_walked .whole id, fun _ => HeaderSource.walked_lasting _⟩
  exact (Machine.invariant (HeaderWalk.Composing given.source ⟨source.walked.pairs⟩) initial
    (fun _ _ _ inv stepped => inv.step checkedRequest walked stepped) ran).built

end

section

attribute [local instance] asciiLibrary emptyJar

/-- A token added on the first hop is gone on the second, which leads elsewhere. -/
theorem calls_composed_elsewhere :
    ∃ w : HeaderWalk Unit,
      (HeaderWalk.machine ⟨[("user-agent".toList, "u".toList)]⟩).run
        (.initial "GET".toList "https://a.test/".toList
          ⟨.sequence apiKey, { RequestOptions.empty with bearerAuth := some "T".toList }⟩ 20 (some ()) true)
        [.build [], .receive (redirectTo "https://b.test/"), .build []] = some w ∧
      w.built.map (·.settings.headers) =
        [[("user-agent".toList, "u".toList), ("x-api-key".toList, "k".toList), ("authorization".toList, "Bearer T".toList)],
          [("user-agent".toList, "u".toList), ("x-api-key".toList, "k".toList)]] ∧
      ∀ call ∈ w.built, ∃ own, LeftOver (.sequence apiKey) own ∧
        Composed own ⟨[("user-agent".toList, "u".toList)]⟩ call.settings.headers := by
  have made : sessionHeaders (.mapping [("user-agent".toList, "u".toList)]) = .ok ⟨[("user-agent".toList, "u".toList)]⟩ := rfl
  have accepted : GivenOptions.target "https://a.test/".toList
      ⟨.sequence apiKey, { RequestOptions.empty with bearerAuth := some "T".toList }⟩ =
        .ok ("https://a.test/".toList, ⟨.sequence apiKey, { RequestOptions.empty with bearerAuth := some "T".toList }⟩) := rfl
  have shown : ((HeaderWalk.machine ⟨[("user-agent".toList, "u".toList)]⟩).run
      (HeaderWalk.initial "GET".toList "https://a.test/".toList
        ⟨.sequence apiKey, { RequestOptions.empty with bearerAuth := some "T".toList }⟩ 20 (some ()) true)
      [.build [], .receive (redirectTo "https://b.test/"), .build []]).map (fun w => w.built.map (·.settings.headers)) =
        some [[("user-agent".toList, "u".toList), ("x-api-key".toList, "k".toList),
          ("authorization".toList, "Bearer T".toList)],
          [("user-agent".toList, "u".toList), ("x-api-key".toList, "k".toList)]] := by decide
  obtain ⟨w, ran, headers⟩ := Option.map_eq_some_iff.mp shown
  exact ⟨w, ran, headers, calls_composed made accepted ran⟩

end

end Cronet.Request
