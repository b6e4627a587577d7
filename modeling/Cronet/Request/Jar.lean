import Cronet.Lib.Machine
import Cronet.Request.Redirect

namespace Cronet.Request

open Cronet.Session (Response)
open Cronet.Url (Str Python)

section

variable [Library] {J : Type}

/-- What a session is in the middle of: nothing, a hop whose call is to be built or is out, or a stream
    whose response is awaited. A stream handed over is the caller's and not the session's any more. -/
inductive Work (J : Type) where
  | idle
  | hop (chain : RedirectChain J)
  | sent (chain : RedirectChain J)
  | streaming

structure JarSession (J : Type) where
  jar : J
  work : Work J

/-- What is done with a session; `refuse` is whatever a call raises, and the response that the exception has if it is
    `ProtocolDowngraded`. -/
inductive JarEvent where
  | request (method url : Str) (options : RequestOptions) (limit : Int)
  | stream (method url : Str) (options : RequestOptions) (limit : Int) (boundary : Str)
  | build (boundary : Str)
  | receive (response : Response)
  | refuse (downgraded : Option Response)

namespace JarSession

variable [CookieJar J]

def withJar (s : JarSession J) (chain : RedirectChain J) : RedirectChain J := { chain with cookies := s.jar }

/-- `receive` stores before it looks where the chain goes, and so also where that raises. -/
def received (s : JarSession J) (chain : RedirectChain J) (response : Response) : JarSession J :=
  match chain.pending with
  | none => { s with work := .idle }
  | some (_, url, _) =>
    let jar := CookieJar.store s.jar url (responseHeaders response)
    match (s.withJar chain).receive response with
    | .error _ => ⟨jar, .idle⟩
    | .ok next => ⟨next.cookies, if next.pending.isSome then .hop next else .idle⟩

def step (defaults : Headers Str) (s : JarSession J) : JarEvent → Option (JarSession J)
  | .request method url options limit =>
    match s.work with
    | .idle => some { s with work := .hop (.initial method url options limit s.jar) }
    | _ => none
  | .stream method url options limit boundary =>
    match s.work with
    | .idle => (buildCall method url options defaults (some s.jar) limit boundary).toOption.map fun _ =>
        { s with work := .streaming }
    | _ => none
  | .build boundary =>
    match s.work with
    | .hop chain =>
      match chain.pending with
      | some (method, url, options) =>
        (buildCall method url options defaults (some s.jar) 0 boundary).toOption.map fun _ => { s with work := .sent chain }
      | none => none
    | _ => none
  | .receive response =>
    match s.work with
    | .sent chain => some (s.received chain response)
    | .streaming => some { s with work := .idle }
    | _ => none
  | .refuse downgraded =>
    match s.work with
    | .idle => none
    | .hop _ => if downgraded = none then some { s with work := .idle } else none
    | .sent _ | .streaming => some { s with work := .idle }

def machine (defaults : Headers Str) : Machine (JarSession J) JarEvent := ⟨step defaults⟩

def initial (jar : J) : JarSession J := ⟨jar, .idle⟩

/-- The responses that reach the caller past the chain, of a stream or on an exception, with the URL each came from. -/
def passed (s : JarSession J) (event : JarEvent) : List (Str × Headers Str) :=
  match event, s.work with
  | .receive response, .streaming | .refuse (some response), .streaming =>
    [(response.url.toList, responseHeaders response)]
  | .refuse (some response), .sent chain => chain.pending.toList.map fun hop => (hop.2.1, responseHeaders response)
  | _, _ => []

def delivered (s : JarSession J) (event : JarEvent) : List (Str × Headers Str) :=
  match event, s.work with
  | .receive response, .sent chain => chain.pending.toList.map fun hop => (hop.2.1, responseHeaders response)
  | _, _ => s.passed event

def stored (jar : J) (responses : List (Str × Headers Str)) : J :=
  responses.foldl (fun jar response => CookieJar.store jar response.1 response.2) jar

/-- In every state of the run, and so whenever the next call is built, the jar has taken in every
    response so far. -/
def JarKept (defaults : Headers Str) (jar : J) (events : List JarEvent) : Prop :=
  ∀ past later s, events = past ++ later → (machine defaults).run (initial jar) past = some s →
    s.jar = stored jar ((machine defaults).outputs delivered (initial jar) past)

def PassesNothing (s : JarSession J) (event : JarEvent) : Prop :=
  ∀ handed ∈ s.passed event, CookieJar.store s.jar handed.1 handed.2 = s.jar

variable {defaults : Headers Str} {jar : J} {s t : JarSession J} {event : JarEvent}

theorem stored_append (jar : J) (first second : List (Str × Headers Str)) :
    stored jar (first ++ second) = stored (stored jar first) second := List.foldl_append ..

theorem receive_cookies (chain : RedirectChain J) {next : RedirectChain J} {response : Response} {method url : Str} {options : RequestOptions}
    (pending : chain.pending = some (method, url, options)) (received : chain.receive response = .ok next) :
    next.cookies = CookieJar.store chain.cookies url (responseHeaders response) := by
  unfold RedirectChain.receive at received
  rw [pending] at received
  obtain ⟨hop, _, received⟩ := Checked.bind_ok received
  cases hop with
  | none =>
    cases received
    rfl
  | some hop =>
    dsimp only at received
    split at received
    · cases received
      rfl
    · split at received <;> cases received
      rfl

theorem received_jar (s : JarSession J) (chain : RedirectChain J) (response : Response) :
    (s.received chain response).jar =
      stored s.jar (chain.pending.toList.map fun hop => (hop.2.1, responseHeaders response)) := by
  unfold received
  cases pending : chain.pending with
  | none => rfl
  | some hop =>
    dsimp only
    cases received : (s.withJar chain).receive response with
    | error e => rfl
    | ok next => exact receive_cookies (s.withJar chain) pending received

theorem stored_passed (s : JarSession J) (event : JarEvent) :
    s.jar = stored s.jar (s.passed event) ↔ s.PassesNothing event := by
  have single : ∀ list : List (Str × Headers Str), list.length ≤ 1 →
      (s.jar = stored s.jar list ↔ ∀ handed ∈ list, CookieJar.store s.jar handed.1 handed.2 = s.jar) := by
    intro list short
    rcases list with _ | ⟨handed, _ | ⟨other, rest⟩⟩
    · exact iff_of_true rfl fun _ member => absurd member List.not_mem_nil
    · rw [List.forall_mem_singleton]
      exact eq_comm
    · exact absurd short (by simp)
  apply single
  unfold passed
  split
  · exact Nat.le_refl 1
  · exact Nat.le_refl 1
  · rename_i chain _
    rw [List.length_map]
    cases chain.pending <;> simp
  · exact Nat.zero_le 1

theorem step_jar (stepped : s.step defaults event = some t) :
    t.jar = stored s.jar (s.delivered event) ↔ PassesNothing s event := by
  have aside : s.delivered event = s.passed event → t.jar = s.jar →
      (t.jar = stored s.jar (s.delivered event) ↔ PassesNothing s event) := by
    intro past same
    rw [past, same]
    exact stored_passed s event
  cases event with
  | request method url options limit =>
    simp only [step] at stepped
    split at stepped
    · cases stepped
      exact aside rfl rfl
    · cases stepped
  | stream method url options limit boundary =>
    simp only [step] at stepped
    split at stepped
    · obtain ⟨_, _, rfl⟩ := Option.map_eq_some_iff.mp stepped
      exact aside rfl rfl
    · cases stepped
  | build boundary =>
    simp only [step] at stepped
    split at stepped
    · split at stepped
      · obtain ⟨_, _, rfl⟩ := Option.map_eq_some_iff.mp stepped
        exact aside rfl rfl
      · cases stepped
    · cases stepped
  | refuse downgraded =>
    simp only [step] at stepped
    split at stepped
    · cases stepped
    · split at stepped
      · cases stepped
        exact aside rfl rfl
      · cases stepped
    · cases stepped
      exact aside rfl rfl
    · cases stepped
      exact aside rfl rfl
  | receive response =>
    simp only [step] at stepped
    cases working : s.work with
    | idle | hop chain =>
      rw [working] at stepped
      cases stepped
    | sent chain =>
      rw [working] at stepped
      cases stepped
      have stores : s.delivered (.receive response) =
          chain.pending.toList.map fun hop => (hop.2.1, responseHeaders response) := by simp only [delivered, working]
      rw [stores, received_jar]
      refine iff_of_true rfl fun handed member => ?_
      simp only [passed, working] at member
      cases member
    | streaming =>
      rw [working] at stepped
      cases stepped
      exact aside (by simp only [delivered, working]) rfl

theorem jarKept_snoc {past : List JarEvent} (ran : (machine defaults).run (initial jar) (past ++ [event]) = some t) :
    JarKept defaults jar (past ++ [event]) ↔ JarKept defaults jar past ∧
      t.jar = stored jar ((machine defaults).outputs delivered (initial jar) (past ++ [event])) := by
  constructor
  · intro kept
    refine ⟨fun first later s split run => ?_, kept _ [] t (List.append_nil _).symm ran⟩
    exact kept first (later ++ [event]) s (by rw [split, List.append_assoc]) run
  · intro ⟨kept, now⟩ first later s split run
    rcases List.eq_nil_or_concat later with rfl | ⟨front, final, rfl⟩
    · rw [List.append_nil] at split
      subst split
      cases ran.symm.trans run
      exact now
    · rw [List.concat_eq_append, ← List.append_assoc] at split
      exact kept first front s (List.append_inj' split rfl).1 run

/-- A session's jar takes in every response, whatever requests and streams are made, exactly if none goes past the chain
    from which the jar would take anything. -/
theorem jar_kept_iff {events : List JarEvent} (ran : (machine defaults).run (initial jar) events = some s) :
    JarKept defaults jar events ↔ (machine defaults).Meets PassesNothing (initial jar) events := by
  refine Machine.history_invariant (fun past _ => JarKept defaults jar past ↔
    (machine defaults).Meets PassesNothing (initial jar) past) ?_ ?_ ran
  · refine iff_of_true (fun past later s split run => ?_) trivial
    obtain ⟨rfl, _⟩ := List.append_eq_nil_iff.mp split.symm
    cases run
    rfl
  · intro past a label b before held stepped
    rw [jarKept_snoc (Machine.run_snoc.mpr ⟨a, before, stepped⟩), Machine.meets_snoc before, held]
    constructor
    · rintro ⟨met, now⟩
      refine ⟨met, (step_jar stepped).mp ?_⟩
      rw [now, Machine.outputs_snoc label before, stored_append, ← held.mpr met past [] a (List.append_nil past).symm before]
    · rintro ⟨met, nothing⟩
      refine ⟨met, ?_⟩
      rw [(step_jar stepped).mpr nothing, Machine.outputs_snoc label before, stored_append,
        ← held.mpr met past [] a (List.append_nil past).symm before]

end JarSession

end

section

attribute [local instance] asciiLibrary

/-- A jar that keeps what it is set and sends it everywhere. -/
local instance plainJar : CookieJar (List Str) where
  headerFor jar _ := if jar = [] then none else some ("; ".toList.intercalate jar)
  extractCookies jar _ headers := jar ++ headers.getList "set-cookie".toList

def setsCookie : Response where
  statusCode := 200
  reason := "OK"
  headers := [("set-cookie", "sid=1")]
  url := "https://a.test/"
  httpVersion := "h2"
  redirectCount := 0
  fromCache := false
  proxy := "direct"
  metrics := .zero
  content := []

namespace JarSession

def setting : List JarEvent :=
  [.request "GET".toList "https://a.test/".toList .empty 20, .build [], .receive setsCookie,
    .stream "GET".toList "https://a.test/b".toList .empty 20 [],
    .refuse (some { setsCookie with headers := [("server", "b")] })]

/-- Cookies set by a whole response are there for a stream, whose response is refused and sets none. -/
theorem jar_kept_request :
    ∃ s, (machine ⟨[]⟩).run (initial ([] : List Str)) setting = some s ∧ JarKept ⟨[]⟩ ([] : List Str) setting := by
  have met : (machine ⟨[]⟩).Meets PassesNothing (initial ([] : List Str)) setting := by
    refine ⟨(fun _ member => by cases member), fun t first => ?_⟩
    cases first
    refine ⟨(fun _ member => by cases member), fun t second => ?_⟩
    cases second
    refine ⟨(fun _ member => by cases member), fun t third => ?_⟩
    cases third
    refine ⟨(fun _ member => by cases member), fun t fourth => ?_⟩
    cases fourth
    refine ⟨fun handed member => ?_, fun _ _ => trivial⟩
    cases List.mem_singleton.mp member
    rfl
  exact ⟨_, rfl, (jar_kept_iff rfl).mpr met⟩

/-- A streamed response sets a cookie, and the jar never hears of it. -/
theorem stream_forgets :
    ∃ s, (machine ⟨[]⟩).run (initial ([] : List Str))
        [.stream "GET".toList "https://a.test/".toList .empty 20 [], .receive setsCookie] = some s ∧ s.jar = [] ∧
      stored ([] : List Str) ((machine ⟨[]⟩).outputs delivered (initial ([] : List Str))
        [.stream "GET".toList "https://a.test/".toList .empty 20 [], .receive setsCookie]) = ["sid=1".toList] ∧
      ¬JarKept ⟨[]⟩ ([] : List Str)
        [.stream "GET".toList "https://a.test/".toList .empty 20 [], .receive setsCookie] := by
  refine ⟨_, rfl, rfl, rfl, fun kept => ?_⟩
  have forgotten := kept _ [] _ (List.append_nil _).symm rfl
  cases forgotten

end JarSession

end

end Cronet.Request
