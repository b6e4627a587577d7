import Cronet.Request.Chain
import Cronet.Url.Readable

namespace Cronet.Request

open Cronet.Session (Response)
open Cronet.Url (Str Readable Ported urljoin origin)

section

variable [Library]

def locationOf (response : Response) : Str := ((responseHeaders response).get? "location".toList).getD []

def Redirects (response : Response) : Prop :=
  locationOf response ≠ [] ∧ 300 ≤ response.statusCode ∧ response.statusCode < 400

/-- Every URL a redirect makes the chain look at has an authority that can be read, and every port of them a number. -/
structure Resolvable (url location : Str) : Prop where
  here : Readable url ∧ Ported url
  named : Readable location
  there : ∀ target, urljoin url location = .ok target → Readable target ∧ Ported target

theorem leadsTo_none {hop : Hop} {response : Response} (last : ¬Redirects response) : leadsTo hop response = .ok none := by
  refine if_pos ?_
  unfold Redirects locationOf at last
  tauto

theorem leadsTo_some {hop : Hop} {response : Response} (redirects : Redirects response) :
    (∃ next, leadsTo hop response = .ok next) ↔
      ∃ target here there, urljoin hop.2.1 (locationOf response) = .ok target ∧ origin hop.2.1 = .ok here ∧
        origin target = .ok there := by
  have going : ¬(((responseHeaders response).get? "location".toList).getD [] = [] ∨
      ¬(300 ≤ response.statusCode ∧ response.statusCode < 400)) := by
    unfold Redirects locationOf at redirects
    tauto
  unfold leadsTo nextHop locationOf
  dsimp only
  rw [if_neg going]
  constructor
  · rintro ⟨next, found⟩
    obtain ⟨target, joined, found⟩ := Checked.bind_ok found
    obtain ⟨here, left, found⟩ := Checked.bind_ok found
    obtain ⟨there, entered, _⟩ := Checked.bind_ok found
    exact ⟨target, here, there, mapError_ok joined, mapError_ok left, mapError_ok entered⟩
  · rintro ⟨target, here, there, joined, left, entered⟩
    refine ⟨some (if becomesGet hop.1 response.statusCode then "GET".toList else hop.1, target, ?_), ?_⟩
    rotate_left
    · simp only [joined, Except.mapError, left, entered, bind, Except.bind, pure, Except.pure]
      rfl

theorem leadsTo_ok_iff {hop : Hop} {response : Response} :
    (∃ next, leadsTo hop response = .ok next) ↔ (Redirects response → Resolvable hop.2.1 (locationOf response)) := by
  by_cases redirects : Redirects response
  swap
  · exact ⟨fun _ => fun asks => absurd asks redirects, fun _ => ⟨none, leadsTo_none redirects⟩⟩
  rw [leadsTo_some redirects]
  constructor
  · rintro ⟨target, here, there, joined, left, entered⟩ _
    have arrived := Url.origin_ok.mp ⟨there, entered⟩
    refine ⟨Url.origin_ok.mp ⟨here, left⟩, ?_, ?_⟩
    · by_cases based : hop.2.1 = []
      · rw [urljoin, if_pos based] at joined
        cases joined
        exact arrived.1
      · exact ((Url.urljoin_ok based redirects.1).mp ⟨target, joined⟩).2
    · intro other same
      rw [joined] at same
      cases same
      exact arrived
  · intro resolvable
    have joins : ∃ target, urljoin hop.2.1 (locationOf response) = .ok target := by
      by_cases based : hop.2.1 = []
      · exact ⟨_, if_pos based⟩
      · exact (Url.urljoin_ok based redirects.1).mpr ⟨(resolvable redirects).here.1, (resolvable redirects).named⟩
    obtain ⟨target, joined⟩ := joins
    obtain ⟨here, left⟩ := Url.origin_ok.mpr (resolvable redirects).here
    obtain ⟨there, entered⟩ := Url.origin_ok.mpr ((resolvable redirects).there target joined)
    exact ⟨target, here, there, joined, left, entered⟩

variable {J : Type} [CookieJar J]

namespace Drive

/-- The chain waits for a response, has its last one, or was ended by an error of the package. -/
def Contained (d : Drive J) : Prop :=
  match d.stopped with
  | none => d.chain.pending ≠ none ∨ d.chain.final ≠ none
  | some .performing => True
  | some (.receiving error) => error.isTooManyRedirects = true

/-- A round whose response leads nowhere, or where its Location can be followed. -/
def Followable (d : Drive J) : Round → Prop
  | .answered response => ∀ hop, d.chain.pending = some hop → Redirects response →
      Resolvable hop.2.1 (locationOf response)
  | .failed => True

theorem contained_answered {d : Drive J} {hop : Hop} (pending : d.chain.pending = some hop) (response : Response) :
    (d.answered hop response).Contained ↔ ∃ next, leadsTo hop response = .ok next := by
  rcases RedirectChain.takeIn_cases pending response with ⟨error, leads, taken⟩ | ⟨next, leads, last, taken⟩ |
    ⟨next, error, leads, nonzero, spent, tooMany, taken⟩ | ⟨next, leads, nonzero, left, taken⟩
  all_goals simp only [Contained, answered, taken]
  · obtain ⟨e, rfl⟩ := leadsTo_error leads
    simp [leads, Raised.isTooManyRedirects]
  · simp [leads]
  · simp [leads, tooMany]
  · simp [leads]

omit [CookieJar J] in
theorem contained_going {d : Drive J} {hop : Hop} (going : d.stopped = none) (pending : d.chain.pending = some hop) :
    d.Contained := by
  rw [Contained, going]
  exact .inl (by rw [pending]; exact Option.some_ne_none hop)

theorem step_contained_iff {d next : Drive J} {round : Round} (stepped : d.step round = some next) :
    d.Contained ∧ (next.Contained ↔ d.Followable round) := by
  simp only [step] at stepped
  split at stepped
  swap
  · cases stepped
  rename_i hop going pending
  refine ⟨contained_going going pending, ?_⟩
  cases round with
  | answered response =>
    cases stepped
    rw [contained_answered pending, leadsTo_ok_iff]
    constructor
    · intro resolvable hop' same
      cases pending.symm.trans same
      exact resolvable
    · exact fun followable => followable hop pending
  | failed =>
    cases stepped
    exact ⟨fun _ => trivial, fun _ => trivial⟩

end Drive

/-- The loop ends with a response or an error of the package exactly as long as every redirect can be followed. -/
theorem redirects_contained_iff {method url : Str} {options : RequestOptions} {limit : Int} {jar : J}
    {rounds : List Round} {d : Drive J}
    (ran : Drive.machine.run (Drive.initial method url options limit jar) rounds = some d) :
    d.Contained ↔ Drive.machine.Meets Drive.Followable (Drive.initial method url options limit jar) rounds := by
  refine Machine.history_invariant (fun past d => d.Contained ↔
    Drive.machine.Meets Drive.Followable (Drive.initial method url options limit jar) past) ?_ ?_ ran
  · exact ⟨fun _ => trivial, fun _ => Drive.contained_going rfl rfl⟩
  · intro past a round b before held stepped
    obtain ⟨contained, step⟩ := Drive.step_contained_iff stepped
    rw [step, Machine.meets_snoc before]
    exact ⟨fun followable => ⟨held.mp contained, followable⟩, And.right⟩

end

section

attribute [local instance] asciiLibrary emptyJar

theorem contained_elsewhere :
    ∃ d : Drive Unit,
      Drive.machine.run (Drive.initial "GET".toList "https://a.test/".toList .empty 20 ())
        [.answered (redirectTo "https://b.test:8443/")] = some d ∧ d.Contained ∧
      Drive.machine.Meets Drive.Followable (Drive.initial "GET".toList "https://a.test/".toList .empty 20 ())
        [.answered (redirectTo "https://b.test:8443/")] := by
  have shown : (Drive.machine.run (Drive.initial "GET".toList "https://a.test/".toList .empty 20 ())
      [.answered (redirectTo "https://b.test:8443/")]).map
        (fun d : Drive Unit => (d.stopped, d.chain.pending.map (·.2.1))) =
      some (none, some "https://b.test:8443/".toList) := by decide
  obtain ⟨d, ran, shown⟩ := Option.map_eq_some_iff.mp shown
  obtain ⟨going, waits⟩ := Prod.mk.inj shown
  obtain ⟨hop, pending, _⟩ := Option.map_eq_some_iff.mp waits
  have contained := Drive.contained_going going pending
  exact ⟨d, ran, contained, (redirects_contained_iff ran).mp contained⟩

/-- One header of a server ends the loop with a `ValueError`. -/
theorem port_escapes :
    checkedUrl "https://a.test/".toList = .ok "https://a.test/".toList ∧ ∃ d : Drive Unit,
      Drive.machine.run (Drive.initial "GET".toList "https://a.test/".toList .empty 20 ())
        [.answered (redirectTo "//b.test:99999/")] = some d ∧
      d.stopped = some (.receiving (.url .portOutOfRange)) ∧ ¬d.Contained := by
  have shown : (Drive.machine.run (Drive.initial "GET".toList "https://a.test/".toList .empty 20 ())
      [.answered (redirectTo "//b.test:99999/")]).map (fun d : Drive Unit => d.stopped) =
        some (some (.receiving (.url .portOutOfRange))) := by decide
  obtain ⟨d, ran, stopped⟩ := Option.map_eq_some_iff.mp shown
  refine ⟨by decide, d, ran, stopped, fun contained => ?_⟩
  rw [Drive.Contained, stopped] at contained
  cases contained

end

end Cronet.Request
