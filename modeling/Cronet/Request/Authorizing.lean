import Cronet.Lib.Base64
import Cronet.Request.Composing

namespace Cronet.Request

open Cronet.Native (Bytes)
open Cronet.Session (Response)
open Cronet.Url (Str Python origin)

/-- What a server reads in a field of the `Basic` scheme: the name ends at the first colon. -/
def readBasic (value : Str) : Option (Str × Str) := do
  let bytes ← if "Basic ".toList.isPrefixOf value then Base64.decode (value.drop 6) else none
  let text ← String.fromUTF8? bytes.toByteArray
  if ':' ∈ text.toList then
    some (text.toList.takeWhile (· ≠ ':'), (text.toList.dropWhile (· ≠ ':')).tail)
  else none

theorem decode_b64encode (bytes : Bytes) : Base64.decode (b64encode bytes) = some bytes := by
  induction bytes using b64encode.induct with
  | case1 => rfl
  | case2 a => exact Base64.decode_last (Base64.quantum_single a)
  | case3 a b => exact Base64.decode_last (Base64.quantum_pair a b)
  | case4 a b c rest ih => exact Base64.decode_whole (Base64.quantum_whole a b c) ih

theorem readBasic_encoded (text : Str) (colon : ':' ∈ text) :
    readBasic ("Basic ".toList ++ b64encode (utf8 text)) =
      some (text.takeWhile (· ≠ ':'), (text.dropWhile (· ≠ ':')).tail) := by
  have scheme : "Basic ".toList.isPrefixOf ("Basic ".toList ++ b64encode (utf8 text)) = true :=
    List.isPrefixOf_iff_prefix.mpr (List.prefix_append _ _)
  have token : ("Basic ".toList ++ b64encode (utf8 text)).drop 6 = b64encode (utf8 text) :=
    List.drop_left' (by decide)
  have valid : (utf8 text).toByteArray.IsValidUTF8 := .intro text rfl
  have decoded : String.fromUTF8? (utf8 text).toByteArray = some (String.ofList text) := by
    rw [String.fromUTF8?, dif_pos valid]
    rfl
  simp only [readBasic, scheme, if_true, token, decode_b64encode, decoded, String.toList_ofList, colon, Option.bind_eq_bind,
    Option.bind_some]

/-- A name with a colon in it is cut at the colon, and only such a name. -/
theorem readBasic_iff (username password : Str) :
    readBasic ("Basic ".toList ++ b64encode (utf8 (username ++ ':' :: password))) = some (username, password) ↔
      ':' ∉ username := by
  have colon : ':' ∈ username ++ ':' :: password := List.mem_append_right _ List.mem_cons_self
  rw [readBasic_encoded _ colon]
  constructor
  · intro same inside
    have cut : (username ++ ':' :: password).takeWhile (· ≠ ':') = username := (Prod.mk.inj (Option.some.inj same)).1
    rw [← cut] at inside
    have other : decide (':' ≠ ':') = true := List.mem_takeWhile_imp (p := fun c => decide (c ≠ ':')) inside
    exact absurd other (by decide)
  · intro plain
    have each : ∀ c ∈ username, decide (c ≠ ':') = true :=
      fun c member => decide_eq_true fun same => plain (same ▸ member)
    rw [List.takeWhile_append_of_pos each, List.dropWhile_append_of_pos each]
    simp

theorem HeaderSource.walked_subset (source : HeaderSource) : source.walked.pairs ⊆ source.pairs := by
  cases source with
  | iterator pairs => exact List.nil_subset _
  | _ => exact List.Subset.refl _

section

variable [Library]

/-- Nobody has spoken for the name `authorization`. -/
def Unspoken (pairs : List (Str × Str)) : Prop := (Headers.mk pairs).contains "authorization".toList = false

/-- The values of a call's `Authorization` fields. -/
def authorizations (call : TracedCall) : List Str :=
  (call.settings.headers.filter fun p => Python.lower p.1 = "authorization".toList).map Prod.snd

theorem lower_authorization : Python.lower "authorization".toList = "authorization".toList :=
  Python.lower_ascii (by decide)

theorem Unspoken.names {pairs : List (Str × Str)} (unspoken : Unspoken pairs) {p : Str × Str} (member : p ∈ pairs) :
    Python.lower p.1 ≠ "authorization".toList := by
  intro same
  have spoken : (Headers.mk pairs).contains "authorization".toList = true :=
    Headers.contains_iff.mpr (List.mem_map.mpr ⟨p, member, same.trans lower_authorization.symm⟩)
  rw [unspoken] at spoken
  cases spoken

theorem Unspoken.subset {pairs fewer : List (Str × Str)} (unspoken : Unspoken pairs) (subset : fewer ⊆ pairs) :
    Unspoken fewer := by
  rw [Unspoken, ← Bool.not_eq_true, Headers.contains_iff, lower_authorization]
  intro spoken
  obtain ⟨p, member, same⟩ := List.mem_map.mp spoken
  exact unspoken.names (subset member) same

variable {J : Type} [CookieJar J]

theorem authorizations_of_built {method url boundary : Str} {options : RequestOptions} {defaults : Headers Str}
    {cookies : Option J} {limit : Int} {call : TracedCall} {credentials : Option Str}
    (built : traceCall method url options defaults cookies limit boundary = .ok call)
    (asked : authorization options = .ok credentials) (own : Unspoken (options.headers.getD []))
    (session : Unspoken defaults.pairs) : authorizations call = credentials.toList := by
  obtain ⟨_, _, impliedType, credentials', given, traced⟩ := traceCall_ok built
  cases asked.symm.trans given
  have free : ((Headers.mk (options.headers.getD [])).withDefaults defaults).contains "authorization".toList = false := by
    rw [Headers.contains_withDefaults, Bool.or_eq_false_iff]
    exact ⟨own, session⟩
  have others : ((Headers.mk (options.headers.getD [])).withDefaults defaults).pairs.filter
      (fun p => Python.lower p.1 = "authorization".toList) = [] := by
    rw [List.filter_eq_nil_iff]
    intro p member
    rw [decide_eq_true_eq]
    rcases Headers.mem_withDefaults.mp member with mine | ⟨theirs, _⟩
    · exact own.names mine
    · exact session.names theirs
  have lowered : ∀ name ∈ ["content-type".toList, "cookie".toList], Python.lower name ≠ "authorization".toList := by
    intro name listed
    have ascii : ∀ name ∈ ["content-type".toList, "cookie".toList],
        Url.isascii name = true ∧ name.map Char.toLower ≠ "authorization".toList := by decide
    rw [Python.lower_ascii (ascii name listed).1]
    exact (ascii name listed).2
  have bare {name : Str} (listed : name ∈ ["content-type".toList, "cookie".toList]) (value : Option Str) :
      (addition ((Headers.mk (options.headers.getD [])).withDefaults defaults) name value).filter
        (fun p => Python.lower p.1 = "authorization".toList) = [] := by
    rw [List.filter_eq_nil_iff]
    intro p member
    rw [decide_eq_true_eq, (mem_addition.mp member).2.1]
    exact lowered name listed
  have placed : (addition ((Headers.mk (options.headers.getD [])).withDefaults defaults) "authorization".toList
      credentials).filter (fun p => Python.lower p.1 = "authorization".toList) =
        credentials.toList.map ("authorization".toList, ·) := by
    rw [addition, if_neg (by rw [free]; decide), List.filter_eq_self]
    intro p member
    obtain ⟨value, _, rfl⟩ := List.mem_map.mp member
    exact decide_eq_true lower_authorization
  rw [authorizations, call.erases, traced, traceHeaders_erased, callHeaders]
  simp only [List.filter_append, others, bare (List.mem_cons_self ..),
    bare (List.mem_cons_of_mem _ (List.mem_cons_self ..)), placed, List.nil_append, List.append_nil]
  rw [List.map_map]
  exact List.map_id _

theorem GivenOptions.withoutCredentials_subset (given : GivenOptions) :
    given.withoutCredentials.source.pairs ⊆ given.source.pairs := by
  unfold GivenOptions.withoutCredentials
  dsimp only
  split
  · exact List.filter_subset_self _
  · exact given.source.walked_subset

theorem GivenOptions.nextHop_subset {method url : Str} {response : Response} {given : GivenOptions}
    {hop : Str × Str × GivenOptions} (found : given.nextHop method url response = .ok (some hop)) :
    hop.2.2.source.pairs ⊆ given.source.pairs := by
  rcases GivenOptions.nextHop_source found with kept | dropped
  · rw [kept]
    exact List.Subset.refl _
  · rw [dropped]
    exact given.withoutCredentials_subset

theorem GivenOptions.nextHop_authorization {method url : Str} {response : Response} {given : GivenOptions}
    {hop : Str × Str × GivenOptions} (found : given.nextHop method url response = .ok (some hop)) :
    ∃ here there, origin url = .ok here ∧ origin hop.2.1 = .ok there ∧
      authorization hop.2.2.options = if here = there then authorization given.options else .ok none := by
  unfold GivenOptions.nextHop at found
  dsimp only at found
  split at found
  · cases found
  · obtain ⟨target, joined, found⟩ := Checked.bind_ok found
    obtain ⟨here, left, found⟩ := Checked.bind_ok found
    obtain ⟨there, entered, found⟩ := Checked.bind_ok found
    cases found
    refine ⟨here, there, mapError_ok left, mapError_ok entered, ?_⟩
    by_cases same : here = there
    · rw [if_neg (not_not_intro same), if_pos same]
      split <;> rfl
    · rw [if_pos same, if_neg same]
      rfl

namespace HeaderWalk

/-- The value goes out on every call up to the first hop elsewhere, and never beside another one. -/
structure Authorized (start value : Str) (w : HeaderWalk J) : Prop where
  pending : ∀ method url given, w.pending = some (method, url, given) → Unspoken given.source.pairs ∧
    (authorization given.options = .ok (some value) ∨ authorization given.options = .ok none)
  home : ∀ method url given, w.pending = some (method, url, given) → Walk.Home start w.built →
    origin url = origin start → authorization given.options = .ok (some value)
  awaited : w.waiting = true → ∀ method url given, w.pending = some (method, url, given) →
    ∃ call ∈ w.built, call.settings.url = url
  sent : ∀ call ∈ w.built, authorizations call = [value] ∨ authorizations call = []
  kept : ∀ before call after, w.built = before ++ call :: after → Walk.Home start (before ++ [call]) →
    authorizations call = [value]

variable {defaults : Headers Str} {w next : HeaderWalk J} {start value : Str}

theorem Authorized.build {method url boundary : Str} {given : GivenOptions} {limit : Int} {call : TracedCall}
    (inv : Authorized start value w) (session : Unspoken defaults.pairs) (pending : w.pending = some (method, url, given))
    (built : traceCall method url given.seen defaults w.cookies limit boundary = .ok call) :
    Authorized start value
      { w with pending := some (method, url, given.walked), built := w.built ++ [call], waiting := true } := by
  have sameUrl := (traceCall_ok built).1
  have home : Walk.Home start (w.built ++ [call]) ↔ Walk.Home start w.built ∧ origin url = origin start := by
    simp only [Walk.Home, List.mem_append, List.mem_singleton, or_imp, forall_and, forall_eq, sameUrl]
  obtain ⟨own, asked⟩ := inv.pending method url given pending
  have carries {credentials : Option Str} (asks : authorization given.options = .ok credentials) :
      authorizations call = credentials.toList := authorizations_of_built built asks own session
  constructor
  case pending =>
    intro method' url' given' same
    cases same
    exact ⟨own.subset given.source.walked_subset, asked⟩
  case home =>
    intro method' url' given' same stays here
    cases same
    exact inv.home method url given pending (home.mp stays).1 here
  case awaited =>
    intro _ method' url' given' same
    cases same
    exact ⟨call, List.mem_append_right _ List.mem_cons_self, sameUrl⟩
  case sent =>
    intro other member
    rcases List.mem_append.mp member with earlier | new
    · exact inv.sent other earlier
    · rw [List.mem_singleton.mp new]
      exact asked.imp carries carries
  case kept =>
    intro before last after split stays
    rcases List.eq_nil_or_concat after with rfl | ⟨front, final, rfl⟩
    · obtain ⟨rfl, same⟩ := List.append_inj' split rfl
      cases same
      obtain ⟨stays, here⟩ := home.mp stays
      exact carries (inv.home method url given pending stays here)
    · have shorter : w.built ++ [call] = (before ++ last :: front) ++ [final] := by simpa using split
      exact inv.kept before last front (List.append_inj' shorter rfl).1 stays

theorem Authorized.receive {response : Response} (inv : Authorized start value w) (waiting : w.waiting = true)
    (received : w.receive response = .ok next) : Authorized start value next := by
  obtain ⟨built, idle, method, url, given, pending, after⟩ := receive_ok received
  obtain ⟨last, member, lastUrl⟩ := inv.awaited waiting method url given pending
  obtain ⟨own, asked⟩ := inv.pending method url given pending
  constructor
  case pending =>
    intro method' url' given' same
    rcases after with finished | ⟨hop, hopped, found⟩
    · rw [finished] at same
      cases same
    · rw [hopped] at same
      cases same
      obtain ⟨here, there, _, _, asks⟩ := GivenOptions.nextHop_authorization found
      refine ⟨own.subset (GivenOptions.nextHop_subset found), ?_⟩
      by_cases within : here = there
      · rw [asks, if_pos within]
        exact asked
      · exact .inr (asks.trans (if_neg within))
  case home =>
    intro method' url' given' same stays arrives
    rw [built] at stays
    rcases after with finished | ⟨hop, hopped, found⟩
    · rw [finished] at same
      cases same
    · rw [hopped] at same
      cases same
      obtain ⟨here, there, left, entered, asks⟩ := GivenOptions.nextHop_authorization found
      have home : origin url = origin start := lastUrl ▸ stays last member
      have within : here = there := Except.ok.inj (left.symm.trans (home.trans (arrives.symm.trans entered)))
      rw [asks, if_pos within]
      exact inv.home method url given pending stays home
  case awaited =>
    intro waits
    rw [idle] at waits
    cases waits
  case sent => exact built ▸ inv.sent
  case kept => exact built ▸ inv.kept

theorem Authorized.step {event : WalkEvent (Option J)} (session : Unspoken defaults.pairs)
    (inv : Authorized start value w) (stepped : w.step defaults event = some next) : Authorized start value next := by
  cases event with
  | build boundary =>
    obtain ⟨method, url, given, limit, call, _, pending, built, rfl⟩ := step_build stepped
    exact inv.build session pending built
  | receive response =>
    obtain ⟨waiting, received⟩ := step_receive stepped
    exact inv.receive waiting received
  | share cookies =>
    cases stepped
    exact ⟨inv.pending, inv.home, inv.awaited, inv.sent, inv.kept⟩

omit [CookieJar J] in
theorem authorized_initial {method : Str} {given : GivenOptions} {limit : Int} {cookies : Option J} {chained : Bool}
    (own : Unspoken given.source.pairs) (asked : authorization given.options = .ok (some value)) :
    Authorized start value (HeaderWalk.initial method start given limit cookies chained) := by
  constructor
  case pending =>
    intro method' url' given' same
    cases same
    exact ⟨own, .inl asked⟩
  case home =>
    intro method' url' given' same _ _
    cases same
    exact asked
  case awaited =>
    intro waits
    cases waits
  case sent => exact fun call member => absurd member List.not_mem_nil
  case kept =>
    intro before call after split
    cases before <;> cases split

end HeaderWalk

/-- What the calls of a request say of its `basic_auth`. -/
structure BasicSent (username password start : Str) (built : List TracedCall) : Prop where
  single : ∀ call ∈ built, (authorizations call).length ≤ 1
  read : ∀ call ∈ built, ∀ value ∈ authorizations call, readBasic value = some (username, password) ↔ ':' ∉ username
  home : ∀ before call after, built = before ++ call :: after → Walk.Home start (before ++ [call]) →
    (authorizations call).length = 1

/-- Along a chain of redirects a server reads the name and the password that were given, if the name has no colon; it is
    never shown two, and up to the first hop elsewhere it is shown them on every call. -/
theorem basic_auth_read {session : Headers Str} {given : GivenOptions} {username password method start : Str}
    {limit : Int} {cookies : Option J} {chained : Bool} {events : List (WalkEvent (Option J))} {w : HeaderWalk J}
    (basic : given.options.basicAuth = some (username, password)) (only : given.options.bearerAuth = none)
    (own : Unspoken given.source.pairs) (defaults : Unspoken session.pairs)
    (ran : (HeaderWalk.machine session).run (.initial method start given limit cookies chained) events = some w) :
    BasicSent username password start w.built := by
  let value := "Basic ".toList ++ b64encode (utf8 (username ++ ':' :: password))
  have asked : authorization given.options = .ok (some value) := by
    rw [authorization, basic, only]
  have inv := Machine.invariant (HeaderWalk.Authorized start value)
    (HeaderWalk.authorized_initial own asked) (fun _ _ _ inv stepped => inv.step defaults stepped) ran
  constructor
  case single =>
    intro call member
    rcases inv.sent call member with sent | sent
    · rw [sent]
      exact Nat.le_refl 1
    · rw [sent]
      exact Nat.zero_le 1
  case read =>
    intro call member shown among
    have same : shown = value := by
      rcases inv.sent call member with sent | sent
      · rw [sent] at among
        exact List.mem_singleton.mp among
      · rw [sent] at among
        cases among
    rw [same]
    exact readBasic_iff username password
  case home =>
    intro before call after split stays
    rw [inv.kept before call after split stays]
    rfl

end

section

attribute [local instance] asciiLibrary emptyJar

/-- A name and a password are shown to the first host and not to the second. -/
theorem basic_auth_read_elsewhere :
    ∃ w : HeaderWalk Unit,
      (HeaderWalk.machine ⟨[]⟩).run
        (.initial "GET".toList "https://a.test/".toList
          ⟨.absent, { RequestOptions.empty with basicAuth := some ("u".toList, "p:q".toList) }⟩ 20 (some ()) true)
        [.build [], .receive (redirectTo "https://b.test/"), .build []] = some w ∧
      w.built.map authorizations = [["Basic dTpwOnE=".toList], []] ∧
      BasicSent "u".toList "p:q".toList "https://a.test/".toList w.built := by
  have shown : ((HeaderWalk.machine ⟨[]⟩).run
      (HeaderWalk.initial "GET".toList "https://a.test/".toList
        ⟨.absent, { RequestOptions.empty with basicAuth := some ("u".toList, "p:q".toList) }⟩ 20 (some ()) true)
      [.build [], .receive (redirectTo "https://b.test/"), .build []]).map (fun w => w.built.map authorizations) =
        some [["Basic dTpwOnE=".toList], []] := by decide
  obtain ⟨w, ran, sent⟩ := Option.map_eq_some_iff.mp shown
  exact ⟨w, ran, sent, basic_auth_read (by rfl) (by rfl) (by rfl) (by rfl) ran⟩

end

end Cronet.Request
