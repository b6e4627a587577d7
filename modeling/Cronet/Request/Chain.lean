import Cronet.Request.Walk

namespace Cronet.Request

open Cronet.Native (CRONET_ERROR_TOO_MANY_REDIRECTS)
open Cronet.Session (Response)
open Cronet.Url (Str origin urljoin)

def Raised.isTooManyRedirects : Raised → Bool
  | .cronet (.requestError .tooManyRedirects _ _ _) => true
  | _ => false

section

variable [Library]

abbrev Hop := Str × Str × RequestOptions

def leadsTo (hop : Hop) (response : Response) : Except Raised (Option Hop) := nextHop hop.1 hop.2.1 response hop.2.2

theorem leadsTo_error {hop : Hop} {response : Response} {error : Raised} (raised : leadsTo hop response = .error error) :
    ∃ e, error = .url e := by
  have url {α : Type} {x : Except Url.ValueError α} (failed : x.mapError Raised.url = .error error) :
      ∃ e, error = .url e := by
    obtain ⟨e, _, same⟩ := mapError_error failed
    exact ⟨e, same⟩
  unfold leadsTo nextHop at raised
  dsimp only at raised
  split at raised
  · cases raised
  · rcases Checked.bind_error raised with unresolved | ⟨_, _, raised⟩
    · exact url unresolved
    rcases Checked.bind_error raised with here | ⟨_, _, raised⟩
    · exact url here
    rcases Checked.bind_error raised with there | ⟨_, _, raised⟩
    · exact url there
    cases raised

variable {J : Type} [CookieJar J]

def RedirectChain.tooManyRedirects (chain : RedirectChain J) : Raised :=
  .cronet (.requestError .tooManyRedirects
    ("more than " ++ toString chain.limit ++ " redirects from " ++ String.ofList chain.start)
    CRONET_ERROR_TOO_MANY_REDIRECTS (String.ofList chain.start))

/-- `receive` with the chain it leaves behind, also where it raises: the cookies are stored first. -/
def RedirectChain.takeIn (chain : RedirectChain J) (response : Response) : RedirectChain J × Except Raised Unit :=
  match chain.pending with
  | none => (chain, .error (.runtimeError "this redirect chain has already finished"))
  | some hop =>
    let stored := { chain with cookies := CookieJar.store chain.cookies hop.2.1 (responseHeaders response) }
    match leadsTo hop response with
    | .error error => (stored, .error error)
    | .ok none => ({ stored with final := some (response, chain.history), pending := none }, .ok ())
    | .ok (some next) =>
      if chain.limit = 0 then ({ stored with final := some (response, chain.history), pending := none }, .ok ())
      else if chain.limit ≤ chain.history.length then (stored, .error chain.tooManyRedirects)
      else ({ stored with history := chain.history ++ [response], pending := some next }, .ok ())

theorem RedirectChain.receive_eq_takeIn (chain : RedirectChain J) (response : Response) :
    chain.receive response = (chain.takeIn response).2.map fun _ => (chain.takeIn response).1 := by
  unfold receive takeIn
  cases chain.pending with
  | none => rfl
  | some hop =>
    obtain ⟨method, url, options⟩ := hop
    simp only [leadsTo]
    cases nextHop method url response options with
    | error error => rfl
    | ok next =>
      cases next with
      | none => rfl
      | some next =>
        dsimp only [bind, Except.bind]
        split
        · rfl
        · split <;> rfl

def RedirectChain.storing (chain : RedirectChain J) (hop : Hop) (response : Response) : RedirectChain J :=
  { chain with cookies := CookieJar.store chain.cookies hop.2.1 (responseHeaders response) }

theorem RedirectChain.takeIn_cases {chain : RedirectChain J} {hop : Hop} (pending : chain.pending = some hop)
    (response : Response) :
    (∃ error, leadsTo hop response = .error error ∧
      chain.takeIn response = (chain.storing hop response, .error error)) ∨
    (∃ next, leadsTo hop response = .ok next ∧ (next = none ∨ chain.limit = 0) ∧ chain.takeIn response =
      ({ chain.storing hop response with final := some (response, chain.history), pending := none }, .ok ())) ∨
    (∃ next error, leadsTo hop response = .ok (some next) ∧ chain.limit ≠ 0 ∧ chain.limit ≤ chain.history.length ∧
      error.isTooManyRedirects = true ∧ chain.takeIn response = (chain.storing hop response, .error error)) ∨
    ∃ next, leadsTo hop response = .ok (some next) ∧ chain.limit ≠ 0 ∧ chain.history.length < chain.limit ∧
      chain.takeIn response =
        ({ chain.storing hop response with history := chain.history ++ [response], pending := some next }, .ok ()) := by
  cases leads : leadsTo hop response with
  | error error => exact .inl ⟨error, rfl, by simp [takeIn, pending, leads, storing]⟩
  | ok next =>
    right
    cases next with
    | none => exact .inl ⟨none, rfl, .inl rfl, by simp [takeIn, pending, leads, storing]⟩
    | some next =>
      by_cases zero : chain.limit = 0
      · exact .inl ⟨some next, rfl, .inr zero, by simp [takeIn, pending, leads, storing, zero]⟩
      · right
        by_cases spent : chain.limit ≤ chain.history.length
        · exact .inl ⟨next, chain.tooManyRedirects, rfl, zero, spent, rfl, by simp [takeIn, pending, leads, storing, zero, spent]⟩
        · exact .inr ⟨next, rfl, zero, not_le.mp spent, by simp [takeIn, pending, leads, storing, zero, spent]⟩

inductive Stop where
  | performing
  | receiving (error : Raised)
  deriving DecidableEq

structure Drive (J : Type) where
  chain : RedirectChain J
  performed : List Hop
  received : List (Hop × Response)
  stopped : Option Stop

/-- How one round of the loop ends: with a response, or with an exception of `perform`. -/
inductive Round where
  | answered (response : Response)
  | failed

namespace Drive

def initial (method url : Str) (options : RequestOptions) (limit : Int) (cookies : J) : Drive J :=
  ⟨.initial method url options limit cookies, [], [], none⟩

def answered (d : Drive J) (hop : Hop) (response : Response) : Drive J where
  chain := (d.chain.takeIn response).1
  performed := d.performed ++ [hop]
  received := d.received ++ [(hop, response)]
  stopped := match (d.chain.takeIn response).2 with
    | .ok _ => none
    | .error error => some (.receiving error)

def step (d : Drive J) : Round → Option (Drive J)
  | round =>
    match d.stopped, d.chain.pending with
    | none, some hop =>
      match round with
      | .answered response => some (d.answered hop response)
      | .failed => some { d with performed := d.performed ++ [hop], stopped := some .performing }
    | _, _ => none

def machine : Machine (Drive J) Round := ⟨step⟩

end Drive

inductive Followed (start : Hop) : List (Hop × Response) → Hop → Prop where
  | start : Followed start [] start
  | next {seen : List (Hop × Response)} {hop next : Hop} {response : Response} (before : Followed start seen hop)
      (leads : leadsTo hop response = .ok (some next)) : Followed start (seen ++ [(hop, response)]) next

def stored (jar : J) (received : List (Hop × Response)) : J :=
  received.foldl (fun jar r => CookieJar.store jar r.1.2.1 (responseHeaders r.2)) jar

structure ChainLaws (start : Hop) (limit : Int) (jar : J) (rounds : Nat) (d : Drive J) : Prop where
  bounded : (rounds : Int) ≤ limit + 1
  performed : d.performed.length = rounds
  produced : d.received.map Prod.fst <+: d.performed
  linked : ∀ earlier hop response, d.received = earlier ++ [(hop, response)] → Followed start earlier hop
  stored : d.chain.cookies = stored jar d.received
  result : ∀ final history, d.chain.result = .ok (final, history) →
    d.received.map Prod.snd = history ++ [final] ∧ history.length ≤ limit
  raised : (∃ error, d.stopped = some (.receiving error) ∧ error.isTooManyRedirects = true) ↔
    1 ≤ limit ∧ ∃ earlier hop response next, d.received = earlier ++ [(hop, response)] ∧ earlier.length = limit ∧
      leadsTo hop response = .ok (some next)
  closed : d.chain.pending = none → ∀ response,
    d.chain.takeIn response = (d.chain, .error (.runtimeError "this redirect chain has already finished"))

theorem stored_snoc (jar : J) (received : List (Hop × Response)) (hop : Hop) (response : Response) :
    Request.stored jar (received ++ [(hop, response)]) =
      CookieJar.store (Request.stored jar received) hop.2.1 (responseHeaders response) := List.foldl_append

namespace Drive

inductive Phase (start : Hop) (d : Drive J) : Prop where
  | running (hop : Hop) (going : d.stopped = none) (pending : d.chain.pending = some hop) (unfinished : d.chain.final = none)
      (history : d.chain.history = d.received.map Prod.snd) (performed : d.performed = d.received.map Prod.fst)
      (within : d.received.length ≤ d.chain.limit) (followed : Followed start d.received hop)
  | finished (earlier : List (Hop × Response)) (hop : Hop) (response : Response) (going : d.stopped = none)
      (closed : d.chain.pending = none) (final : d.chain.final = some (response, earlier.map Prod.snd))
      (received : d.received = earlier ++ [(hop, response)]) (performed : d.performed = d.received.map Prod.fst)
      (within : earlier.length ≤ d.chain.limit) (followed : Followed start earlier hop)
      (leads : leadsTo hop response = .ok none ∨ d.chain.limit = 0)
  | raised (error : Raised) (earlier : List (Hop × Response)) (hop : Hop) (response : Response)
      (stopped : d.stopped = some (.receiving error)) (pending : d.chain.pending = some hop)
      (unfinished : d.chain.final = none) (received : d.received = earlier ++ [(hop, response)])
      (performed : d.performed = d.received.map Prod.fst) (within : earlier.length ≤ d.chain.limit)
      (followed : Followed start earlier hop)
      (leads : leadsTo hop response = .error error ∨ error.isTooManyRedirects = true ∧ d.chain.limit ≠ 0 ∧
        d.chain.limit ≤ earlier.length ∧ ∃ next, leadsTo hop response = .ok (some next))
  | failed (hop : Hop) (stopped : d.stopped = some .performing) (pending : d.chain.pending = some hop)
      (unfinished : d.chain.final = none) (performed : d.performed = d.received.map Prod.fst ++ [hop])
      (within : d.received.length ≤ d.chain.limit) (followed : Followed start d.received hop)

structure Inv (start : Hop) (limit : Int) (jar : J) (rounds : Nat) (d : Drive J) : Prop where
  limit : d.chain.limit = limit
  stored : d.chain.cookies = Request.stored jar d.received
  rounds : d.performed.length = rounds
  phase : d.Phase start

theorem inv_initial (method url : Str) (options : RequestOptions) {limit : Int} (jar : J) (natural : 0 ≤ limit) :
    Inv (method, url, options) limit jar 0 (initial method url options limit jar) where
  limit := rfl
  stored := rfl
  rounds := rfl
  phase := .running _ rfl rfl rfl rfl rfl natural .start

theorem Phase.answered {start hop : Hop} {d : Drive J} (phase : d.Phase start) (going : d.stopped = none)
    (pending : d.chain.pending = some hop) (response : Response) :
    (d.answered hop response).chain.limit = d.chain.limit ∧
      (d.answered hop response).chain.cookies =
        CookieJar.store d.chain.cookies hop.2.1 (responseHeaders response) ∧
      (d.answered hop response).Phase start := by
  cases phase with
  | finished earlier hop response going closed => cases closed.symm.trans pending
  | raised error earlier hop response stopped => cases stopped.symm.trans going
  | failed hop stopped => cases stopped.symm.trans going
  | running hop going pending' unfinished history performed within followed =>
    cases pending'.symm.trans pending
    have asked : d.performed ++ [hop] = (d.received ++ [(hop, response)]).map Prod.fst := by simp [performed]
    have count : d.chain.history.length = d.received.length := by simp [history]
    rcases RedirectChain.takeIn_cases pending response with ⟨error, leads, taken⟩ | ⟨next, leads, last, taken⟩ |
      ⟨next, error, leads, nonzero, spent, tooMany, taken⟩ | ⟨next, leads, nonzero, left, taken⟩
    all_goals simp only [Drive.answered, taken]
    · exact ⟨rfl, rfl, .raised error _ hop response rfl pending unfinished rfl asked within followed (.inl leads)⟩
    · have ends : leadsTo hop response = .ok none ∨ d.chain.limit = 0 := by
        rcases last with rfl | zero
        · exact .inl leads
        · exact .inr zero
      exact ⟨rfl, rfl, .finished _ hop response rfl rfl (by rw [history]) rfl asked within followed ends⟩
    · refine ⟨rfl, rfl, .raised error _ hop response rfl pending unfinished rfl asked within followed (.inr ?_)⟩
      exact ⟨tooMany, nonzero, count ▸ spent, next, leads⟩
    · refine ⟨rfl, rfl, .running next rfl rfl unfinished (by simp [history]) asked ?_ (.next followed leads)⟩
      simp only [List.length_append, List.length_singleton]
      rw [count] at left
      exact_mod_cast left

theorem Inv.step {start : Hop} {limit : Int} {jar : J} {rounds : Nat} {d next : Drive J} {round : Round}
    (inv : d.Inv start limit jar rounds) (stepped : d.step round = some next) :
    next.Inv start limit jar (rounds + 1) := by
  simp only [Drive.step] at stepped
  split at stepped
  swap
  · cases stepped
  rename_i hop going pending
  cases round with
  | answered response =>
    cases stepped
    obtain ⟨limit, cookies, phase⟩ := inv.phase.answered going pending response
    refine ⟨limit.trans inv.limit, ?_, by simp [Drive.answered, inv.rounds], phase⟩
    rw [cookies, inv.stored, ← stored_snoc]
    rfl
  | failed =>
    cases stepped
    refine ⟨inv.limit, inv.stored, by simp [inv.rounds], ?_⟩
    cases inv.phase with
    | finished earlier hop response going closed => cases closed.symm.trans pending
    | raised error earlier hop response stopped => cases stopped.symm.trans going
    | failed hop stopped => cases stopped.symm.trans going
    | running hop going pending' unfinished history performed within followed =>
      cases pending'.symm.trans pending
      exact .failed hop rfl pending unfinished (by rw [performed]) within followed

section

omit [CookieJar J]

theorem Phase.within {start : Hop} {d : Drive J} (phase : d.Phase start) :
    (d.performed.length : Int) ≤ d.chain.limit + 1 ∧ d.received.map Prod.fst <+: d.performed := by
  cases phase with
  | running hop going pending unfinished history performed within followed =>
    rw [performed, List.length_map]
    exact ⟨by omega, List.prefix_rfl⟩
  | finished earlier hop response going closed final received performed within followed leads =>
    rw [performed, received, List.length_map, List.length_append]
    exact ⟨by simpa using within, List.prefix_rfl⟩
  | raised error earlier hop response stopped pending unfinished received performed within followed leads =>
    rw [performed, received, List.length_map, List.length_append]
    exact ⟨by simpa using within, List.prefix_rfl⟩
  | failed hop stopped pending unfinished performed within followed =>
    rw [performed, List.length_append, List.length_map]
    exact ⟨by simpa using within, List.prefix_append _ _⟩

theorem Phase.linked {start hop : Hop} {d : Drive J} {earlier : List (Hop × Response)} {response : Response}
    (phase : d.Phase start) (last : d.received = earlier ++ [(hop, response)]) : Followed start earlier hop := by
  have behind {next : Hop} (followed : Followed start d.received next) : Followed start earlier hop := by
    rw [last] at followed
    generalize seen : earlier ++ [(hop, response)] = received at followed
    cases followed with
    | start => simp at seen
    | next before leads =>
      obtain ⟨rfl, same⟩ := List.append_inj' seen rfl
      cases same
      exact before
  have only {earlier' : List (Hop × Response)} {hop' : Hop} {response' : Response}
      (received : d.received = earlier' ++ [(hop', response')]) (followed : Followed start earlier' hop') :
      Followed start earlier hop := by
    obtain ⟨rfl, same⟩ := List.append_inj' (received.symm.trans last) rfl
    cases same
    exact followed
  cases phase with
  | running _ _ _ _ _ _ _ followed => exact behind followed
  | finished _ _ _ _ _ _ received _ _ followed => exact only received followed
  | raised _ _ _ _ _ _ _ received _ _ followed => exact only received followed
  | failed _ _ _ _ _ _ followed => exact behind followed

theorem Phase.result {start : Hop} {d : Drive J} {final : Response} {history : List Response} (phase : d.Phase start)
    (ended : d.chain.result = .ok (final, history)) :
    d.received.map Prod.snd = history ++ [final] ∧ history.length ≤ d.chain.limit := by
  have still (unfinished : d.chain.final = none) : d.received.map Prod.snd = history ++ [final] ∧
      history.length ≤ d.chain.limit := by
    rw [RedirectChain.result, unfinished] at ended
    cases ended
  cases phase with
  | finished earlier hop response going closed final received performed within followed leads =>
    rw [RedirectChain.result, final] at ended
    cases ended
    rw [received, List.map_append, List.length_map]
    exact ⟨rfl, within⟩
  | running _ _ _ unfinished => exact still unfinished
  | raised _ _ _ _ _ _ unfinished => exact still unfinished
  | failed _ _ _ unfinished => exact still unfinished

/-- The chain fails on the redirect behind the last one it may follow. -/
theorem Phase.raised_iff {start : Hop} {d : Drive J} (phase : d.Phase start) (natural : 0 ≤ d.chain.limit) :
    (∃ error, d.stopped = some (.receiving error) ∧ error.isTooManyRedirects = true) ↔
      1 ≤ d.chain.limit ∧ ∃ earlier hop response next, d.received = earlier ++ [(hop, response)] ∧
        earlier.length = d.chain.limit ∧ leadsTo hop response = .ok (some next) := by
  constructor
  · rintro ⟨error, stopped, tooMany⟩
    cases phase with
    | running hop going => cases going.symm.trans stopped
    | finished earlier hop response going => cases going.symm.trans stopped
    | failed hop stopped' => cases stopped'.symm.trans stopped
    | raised error' earlier hop response stopped' pending unfinished received performed within followed leads =>
      cases stopped'.symm.trans stopped
      rcases leads with failed | ⟨_, nonzero, spent, next, leads⟩
      · obtain ⟨e, rfl⟩ := leadsTo_error failed
        cases tooMany
      · exact ⟨by omega, earlier, hop, response, next, received, le_antisymm within spent, leads⟩
  · rintro ⟨positive, earlier, hop, response, next, last, count, leads⟩
    have length : d.received.length = d.chain.limit + 1 := by simp [last, count]
    cases phase with
    | running hop going pending unfinished history performed within => omega
    | failed hop stopped pending unfinished performed within => omega
    | finished earlier' hop' response' going closed final received performed within followed leads' =>
      obtain ⟨rfl, same⟩ := List.append_inj' (received.symm.trans last) rfl
      cases same
      rcases leads' with last | zero
      · cases last.symm.trans leads
      · omega
    | raised error earlier' hop' response' stopped pending unfinished received performed within followed leads' =>
      obtain ⟨rfl, same⟩ := List.append_inj' (received.symm.trans last) rfl
      cases same
      rcases leads' with failed | ⟨tooMany, _⟩
      · cases failed.symm.trans leads
      · exact ⟨error, stopped, tooMany⟩

end

theorem inv_run {method url : Str} {options : RequestOptions} {limit : Int} {jar : J} {rounds : List Round}
    {d : Drive J} (natural : 0 ≤ limit) (ran : machine.run (initial method url options limit jar) rounds = some d) :
    d.Inv (method, url, options) limit jar rounds.length := by
  refine Machine.history_invariant (fun past d => d.Inv (method, url, options) limit jar past.length)
    (inv_initial method url options jar natural) ?_ ran
  intro past a round b _ inv stepped
  rw [List.length_append]
  exact inv.step stepped

end Drive

theorem RedirectChain.takeIn_closed {chain : RedirectChain J} (closed : chain.pending = none) (response : Response) :
    chain.takeIn response = (chain, .error (.runtimeError "this redirect chain has already finished")) := by
  rw [takeIn, closed]

/-- However a server answers, the loop ends within its limit and keeps account of every response. -/
theorem chain_laws {method url : Str} {options : RequestOptions} {limit : Int} {jar : J} {rounds : List Round}
    {d : Drive J} (natural : 0 ≤ limit)
    (ran : Drive.machine.run (Drive.initial method url options limit jar) rounds = some d) :
    ChainLaws (method, url, options) limit jar rounds.length d := by
  obtain ⟨rfl, kept, count, phase⟩ := Drive.inv_run natural ran
  have within := phase.within
  exact {
    bounded := count ▸ within.1
    performed := count
    produced := within.2
    linked := fun _ _ _ last => phase.linked last
    stored := kept
    result := fun _ _ ended => phase.result ended
    raised := phase.raised_iff natural
    closed := fun closed response => RedirectChain.takeIn_closed closed response }

end

section

attribute [local instance] asciiLibrary

/-- A jar that keeps the URLs it was given cookies under. -/
local instance urlJar : CookieJar (List Str) := ⟨fun _ _ => none, fun jar url _ => jar ++ [url]⟩

def redirectSetting (location : String) : Response :=
  { redirectTo location with headers := [("location", location), ("set-cookie", "sid=1")] }

/-- With one redirect allowed, the second raises, its cookies stored all the same. -/
theorem chain_laws_second :
    ∃ d : Drive (List Str),
      Drive.machine.run (Drive.initial "GET".toList "https://a.test/".toList .empty 1 [])
        [.answered (redirectSetting "https://b.test/"), .answered (redirectSetting "https://c.test/")] = some d ∧
      d.chain.cookies = ["https://a.test/".toList, "https://b.test/".toList] ∧
      d.chain.history = [redirectSetting "https://b.test/"] ∧
      ChainLaws ("GET".toList, "https://a.test/".toList, .empty) 1 [] 2 d := by
  have shown : (Drive.machine.run (Drive.initial "GET".toList "https://a.test/".toList .empty 1 [])
      [.answered (redirectSetting "https://b.test/"), .answered (redirectSetting "https://c.test/")]).map
        (fun d : Drive (List Str) => (d.chain.cookies, d.chain.history)) =
      some (["https://a.test/".toList, "https://b.test/".toList], [redirectSetting "https://b.test/"]) := by decide
  obtain ⟨d, ran, shown⟩ := Option.map_eq_some_iff.mp shown
  obtain ⟨cookies, history⟩ := Prod.mk.inj shown
  exact ⟨d, ran, cookies, history, chain_laws (by decide) ran⟩

end

end Cronet.Request
