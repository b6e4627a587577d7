import Cronet.Native.Progress

namespace Cronet.Native

/-- Every pointer of the view but that of the error message points at its string. -/
structure ResponseStorage.Published (r : ResponseStorage) : Prop where
  statusText : r.view.statusText = some r.statusText
  headers : r.view.headers = r.headerPairs
  negotiatedProtocol : r.view.negotiatedProtocol = some r.negotiatedProtocol
  proxyServer : r.view.proxyServer = some r.proxyServer
  finalUrl : r.view.finalUrl = some r.finalUrl

/-- What of a response is final once its headers have come, save the number of redirects. -/
def ResponseStorage.settled (r : ResponseStorage) : ResponseStorage :=
  { r with
    errorMessage := ""
    view := { r.view with redirectCount := 0, errorCode := 0, errorMessage := none, metrics := .zero } }

theorem ResponseStorage.Published.congr {r s : ResponseStorage} (published : r.Published) (same : s.settled = r.settled) :
    s.Published := by
  obtain ⟨view, _, _, _, _, _, _⟩ := r
  obtain ⟨view', _, _, _, _, _, _⟩ := s
  obtain ⟨statusText, headers, negotiatedProtocol, proxyServer, finalUrl⟩ := published
  simp only [settled, mk.injEq, ResponseView.mk.injEq] at same
  constructor <;> simp_all

def NetOp.location : NetOp → Option String
  | onRedirect location => some location
  | _ => none

def NetOp.countStored : NetOp → Option Nat
  | setRedirectCount count => some count
  | _ => none

def NetOp.fills : NetOp → Bool
  | onRedirect _ | onResponse _ => true
  | _ => false

def redirected (past : List NetOp) : List String := past.filterMap NetOp.location

def counts (past : List NetOp) : List Nat := past.filterMap NetOp.countStored

namespace Call

def Answered (c : Call) : Prop := c.request.phase = .body ∨ Concluding c

/-- What a call says of its response, `past` being the operations performed so far. -/
structure Responding (url : String) (past : List NetOp) (c : Call) : Prop where
  observed : c.observer.redirectCount = (redirected past).length
  finalUrl : c.shared.response.finalUrl = (redirected past).getLastD url
  atRest : ∀ op ∈ c.net, op.fills = false
  published : c.shared.headersPublished = true → c.shared.response.Published ∧ c.Answered
  headers : .storeHeaders ∈ c.net ∨ c.shared.state = .headers → c.shared.headersPublished = true
  counting : ∀ count, .setRedirectCount count ∈ c.net → c.shared.headersPublished = true ∧ count = (redirected past).length
  counted : c.shared.response.view.redirectCount = if counts past = [] then 0 else (redirected past).length
  uncounted : c.shared.headersPublished = false → counts past = []

theorem responding_initial (url : String) (maxRedirects : Int) : Responding url [] (initial url maxRedirects) := by
  constructor <;> simp [initial, CallState.initial, ResponseStorage.initial, ResponseView.zero, redirected, counts]

section Exec

variable (c : Call) (op : NetOp)

theorem exec_observer : (c.exec op).1.observer = c.observer := by
  cases op <;> simp only [exec] <;> (try split) <;> rfl

theorem exec_settled (quiet : op.fills = false) (unpublished : op = .publishUnpublished → c.shared.headersPublished = true) :
    (c.exec op).1.shared.response.settled = c.shared.response.settled := by
  cases op with
  | onRedirect | onResponse => cases quiet
  | publishUnpublished => simp [exec, unpublished rfl]
  | claimOutcome code message =>
    simp only [exec]
    split <;> rfl
  | setMetrics metrics =>
    simp only [exec, CallState.setMetrics]
    split <;> rfl
  | destroyRequest flag => simp [exec, destroyRequest]
  | _ => rfl

theorem exec_finalUrl (quiet : op.fills = false) :
    (c.exec op).1.shared.response.finalUrl = c.shared.response.finalUrl := by
  by_cases unpublished : op = .publishUnpublished ∧ c.shared.headersPublished = false
  · obtain ⟨rfl, new⟩ := unpublished
    simp [exec, new, ResponseStorage.publish]
  · have same := exec_settled c op quiet fun publishes => by simpa [publishes] using unpublished
    change (c.exec op).1.shared.response.settled.finalUrl = c.shared.response.settled.finalUrl
    rw [same]

theorem exec_headersPublished (quiet : op.fills = false) :
    (c.exec op).1.shared.headersPublished = (c.shared.headersPublished || op = .publishUnpublished) := by
  cases op with
  | onRedirect | onResponse => cases quiet
  | publishUnpublished =>
    simp only [exec]
    split <;> simp_all
  | claimOutcome code message =>
    simp only [exec]
    split <;> simp
  | setMetrics metrics =>
    simp only [exec, CallState.setMetrics]
    split <;> simp
  | destroyRequest flag =>
    simp only [exec, destroyRequest, CallState.destroyRequest]
    split <;> simp
  | _ => simp [exec, post, CallState.signalProgress]

theorem exec_redirectCount (quiet : op.fills = false) :
    (c.exec op).1.shared.response.view.redirectCount = op.countStored.getD c.shared.response.view.redirectCount := by
  cases op with
  | onRedirect | onResponse => cases quiet
  | claimOutcome code message | publishUnpublished =>
    simp only [exec]
    split <;> rfl
  | setMetrics metrics =>
    simp only [exec, CallState.setMetrics]
    split <;> rfl
  | destroyRequest flag => simp [exec, destroyRequest, NetOp.countStored]
  | _ => rfl

theorem exec_headers (moved : (c.exec op).1.shared.state = .headers) : op = .storeHeaders ∨ c.shared.state = .headers := by
  cases op with
  | storeHeaders => exact .inl rfl
  | claimOutcome code message | publishUnpublished =>
    simp only [exec] at moved
    split at moved <;> exact .inr moved
  | setMetrics metrics =>
    simp only [exec, CallState.setMetrics] at moved
    split at moved <;> exact .inr moved
  | destroyRequest flag =>
    simp only [exec, destroyRequest, CallState.destroyRequest] at moved
    split at moved <;> exact .inr moved
  | storeDone => cases moved
  | _ => exact .inr moved

theorem exec_pushes_quiet : ∀ next ∈ (c.exec op).2, next.fills = false ∧ next ≠ .storeHeaders ∧ next.countStored = none := by
  cases op with
  | claimOutcome code message =>
    simp only [exec]
    split <;> simp [finishStores, NetOp.fills, NetOp.countStored]
  | onData chunk =>
    simp only [exec]
    split <;> simp [NetOp.fills, NetOp.countStored]
  | _ => simp [exec]

end Exec

theorem perform_concluding {c : Call} {ops : List NetOp} (claimed : c.shared.outcomeClaimed = c.outcome.isSome)
    (concluding : Concluding { c with net := ops }) : Concluding (c.perform ops) := by
  cases ops with
  | nil => exact concluding
  | cons op rest =>
    rcases concluding with recorded | ⟨code, message, member⟩
    · left
      obtain ⟨code, recorded⟩ := Option.isSome_iff_exists.mp recorded
      have kept : (c.perform (op :: rest)).outcome = some code :=
        perform_outcome (claimed.trans (congrArg Option.isSome recorded)) recorded
      rw [kept, Option.isSome_some]
    · rcases List.mem_cons.mp member with rfl | later
      · left
        simp only [perform, exec]
        split
        · exact claimed ▸ ‹_›
        · rfl
      · exact .inr ⟨code, message, List.mem_append_right _ later⟩

theorem Responding.perform {url : String} {past : List NetOp} {c : Call} {ops : List NetOp}
    (responding : Responding url past { c with net := ops })
    (claimed : c.shared.outcomeClaimed = c.outcome.isSome) (progress : Progress past c.shared c.outcome ops) : Responding url (past ++ ops.take 1) (c.perform ops) := by
  cases ops with
  | nil => simpa [Call.perform] using responding
  | cons op rest =>
    obtain ⟨observed, finalUrl, atRest, published, headers, counting, counted, uncounted⟩ := responding
    have quiet : op.fills = false := atRest op (by simp)
    have sameRedirected : redirected (past ++ [op]) = redirected past := by
      cases op with
      | onRedirect => cases quiet
      | _ => simp [redirected, NetOp.location]
    have sameCounts : counts (past ++ [op]) = counts past ++ op.countStored.toList := by
      cases op <;> simp [counts, NetOp.countStored]
    have net : (c.perform (op :: rest)).net = (c.exec op).2 ++ rest := rfl
    have isPublished : (c.perform (op :: rest)).shared.headersPublished =
        (c.shared.headersPublished || op = .publishUnpublished) := exec_headersPublished c op quiet
    have same := exec_settled c op quiet
    have stillPublished (was : c.shared.headersPublished = true) :
        (c.perform (op :: rest)).shared.headersPublished = true := by rw [isPublished, was, Bool.true_or]
    have concluding : c.request.phase = .body ∨ Concluding { c with net := op :: rest } → (c.perform (op :: rest)).Answered :=
      Or.imp (fun inBody => (exec_phase c op).trans inBody) (perform_concluding claimed)
    change Responding url (past ++ [op]) (c.perform (op :: rest))
    constructor
    · rw [sameRedirected]
      exact (congrArg RequestObserver.redirectCount (exec_observer c op)).trans observed
    · rw [sameRedirected]
      exact (exec_finalUrl c op quiet).trans finalUrl
    · intro next member
      rcases List.mem_append.mp member with pushed | later
      · exact (exec_pushes_quiet c op next pushed).1
      · exact atRest next (List.mem_cons_of_mem _ later)
    · intro now
      rw [isPublished, Bool.or_eq_true, decide_eq_true_eq] at now
      by_cases was : c.shared.headersPublished = true
      · exact ⟨(published was).1.congr (same fun _ => was), concluding (published was).2⟩
      · obtain rfl := now.resolve_left was
        have new : (c.perform (.publishUnpublished :: rest)).shared.response = c.shared.response.publish := by
          simp [Call.perform, exec, was]
        rw [new]
        exact ⟨⟨rfl, rfl, rfl, rfl, rfl⟩, concluding (.inr (.inl (progress.recorded_of_publishing (by simp))))⟩
    · rintro (member | moved)
      · rcases List.mem_append.mp member with pushed | later
        · exact absurd rfl (exec_pushes_quiet c op _ pushed).2.1
        · exact stillPublished (headers (.inl (List.mem_cons_of_mem _ later)))
      · rcases exec_headers c op moved with rfl | already
        · exact stillPublished (headers (.inl (by simp)))
        · exact stillPublished (headers (.inr already))
    · intro count member
      rw [sameRedirected]
      rcases List.mem_append.mp member with pushed | later
      · exact absurd (exec_pushes_quiet c op _ pushed).2.2 (by simp [NetOp.countStored])
      · have due := counting count (List.mem_cons_of_mem _ later)
        exact ⟨stillPublished due.1, due.2⟩
    · rw [sameRedirected, sameCounts]
      change (c.exec op).1.shared.response.view.redirectCount = _
      rw [exec_redirectCount c op quiet]
      cases stores : op.countStored with
      | none => simpa using counted
      | some count =>
        cases op with
        | setRedirectCount count' =>
          cases stores
          simpa using (counting count (by simp)).2
        | _ => cases stores
    · intro not
      rw [isPublished, Bool.or_eq_false_iff] at not
      rw [sameCounts, uncounted not.1, List.nil_append]
      cases op with
      | setRedirectCount count =>
        have was : c.shared.headersPublished = true := (counting count (by simp)).1
        rw [was] at not
        cases not.1
      | _ => rfl

theorem Responding.enter {url : String} {past : List NetOp} {c : Call} {request : UrlRequest} {ops : List NetOp}
    (responding : Responding url past c) (quiet : ∀ op ∈ ops, op.fills = false ∧ op ≠ .storeHeaders ∧ op.countStored = none)
    (answered : c.Answered → Answered { c with request := request, net := ops }) :
    Responding url past { c with request := request, net := ops } where
  observed := responding.observed
  finalUrl := responding.finalUrl
  atRest op member := (quiet op member).1
  published now := (responding.published now).imp_right answered
  headers now := responding.headers (now.imp_left fun member => absurd rfl (quiet _ member).2.1)
  counting count member := absurd (quiet _ member).2.2 (by simp [NetOp.countStored])
  counted := responding.counted
  uncounted := responding.uncounted

theorem Responding.unpublished {url : String} {past : List NetOp} {c : Call} (responding : Responding url past c)
    (opened : OpenInv c) (running : c.request.phase = .running) : c.shared.headersPublished = false := by
  by_contra published
  rcases (responding.published (by simpa using published)).2 with inBody | concluding
  · rw [running] at inBody
    cases inBody
  · exact opened.opened (.inr (.inl running)) concluding

theorem Responding.respond {url : String} {past : List NetOp} {c : Call} {request : UrlRequest} {head : ResponseHead}
    {rest : List NetOp} (responding : Responding url past c) (unpublished : c.shared.headersPublished = false)
    (quiet : ∀ op ∈ rest, op.fills = false ∧ op.countStored = none)
    (answered : Answered { c with request := request, net := .signalProgress :: .setRedirectCount c.observer.redirectCount :: rest }) :
    Responding url (past ++ [.onResponse head]) ({ c with request := request }.perform
      (RequestObserver.responseOps head ++ NetOp.setRedirectCount c.observer.redirectCount :: rest)) := by
  have sameRedirected : redirected (past ++ [.onResponse head]) = redirected past := by simp [redirected, NetOp.location]
  have none : counts (past ++ [.onResponse head]) = [] := by
    simpa [counts, NetOp.countStored] using responding.uncounted unpublished
  constructor
  · rw [sameRedirected]
    exact responding.observed
  · rw [sameRedirected]
    exact responding.finalUrl
  · intro op member
    simp only [Call.perform, RequestObserver.responseOps, exec, List.nil_append, List.cons_append, List.mem_cons] at member
    rcases member with rfl | rfl | rfl | later
    · rfl
    · rfl
    · rfl
    · exact (quiet op later).1
  · refine fun _ => ⟨⟨rfl, rfl, rfl, rfl, rfl⟩, answered.imp id (Or.imp id ?_)⟩
    rintro ⟨code, message, member⟩
    exact ⟨code, message, List.mem_cons_of_mem _ member⟩
  · exact fun _ => rfl
  · intro count member
    rw [sameRedirected]
    simp only [Call.perform, RequestObserver.responseOps, exec, List.nil_append, List.cons_append, List.mem_cons] at member
    rcases member with same | same | same | later
    · cases same
    · cases same
    · cases same
      exact ⟨rfl, responding.observed⟩
    · exact absurd (quiet _ later).2 (by simp [NetOp.countStored])
  · rw [none, if_pos rfl]
    have zero := responding.counted
    rwa [responding.uncounted unpublished, if_pos rfl] at zero
  · intro not
    cases not

theorem Responding.follow {url : String} {past : List NetOp} {c : Call} {request : UrlRequest} {location : String}
    (responding : Responding url past c) (unpublished : c.shared.headersPublished = false) :
    Responding url (past ++ [.onRedirect location]) ({ c with
      request := request, observer := { c.observer with redirectCount := c.observer.redirectCount + 1 } }.perform
        [.onRedirect location, .followRedirect]) := by
  have next : redirected (past ++ [.onRedirect location]) = redirected past ++ [location] := by simp [redirected, NetOp.location]
  have none : counts (past ++ [.onRedirect location]) = [] := by
    simpa [counts, NetOp.countStored] using responding.uncounted unpublished
  have still (now : c.shared.headersPublished = true) : False := by simp [unpublished] at now
  constructor
  · rw [next, List.length_append]
    exact congrArg (· + 1) responding.observed
  · rw [next, List.getLastD_concat]
    rfl
  · simp [Call.perform, exec, NetOp.fills]
  · exact fun now => (still now).elim
  · rintro (member | moved)
    · simp [Call.perform, exec] at member
    · exact responding.headers (.inr moved)
  · simp [Call.perform, exec]
  · rw [none, if_pos rfl]
    have zero := responding.counted
    rwa [responding.uncounted unpublished, if_pos rfl] at zero
  · exact fun _ => none

theorem runTask_quiet {r : UrlRequest} {metrics : Option Metrics} {ran : UrlRequest × List NetOp}
    (done : r.runTask metrics = some ran) : ∀ op ∈ ran.2, op.fills = false ∧ op ≠ .storeHeaders ∧ op.countStored = none := by
  have teardown := (runTask_closes done).2
  intro op member
  have isTeardown := List.all_eq_true.mp teardown op member
  cases op with
  | onRedirect | onResponse | storeHeaders | setRedirectCount => cases isTeardown
  | _ => exact ⟨rfl, by simp, rfl⟩

theorem runTask_concludes {r : UrlRequest} {metrics : Option Metrics} {ran : UrlRequest × List NetOp}
    (done : r.runTask metrics = some ran) (alive : r.phase ≠ .dead) (dead : ran.1.phase = .dead) :
    ∃ code message, NetOp.claimOutcome code message ∈ ran.2 := by
  unfold UrlRequest.runTask at done
  rw [if_neg alive] at done
  dsimp only at done
  split at done <;> cases done
  · split at dead
    · cases dead
    · exact absurd dead alive
  · exact absurd dead alive
  · split at dead
    · cases dead
    · exact absurd dead alive
  · exact ⟨_, _, List.mem_append_right _ (List.mem_cons_self)⟩

theorem Responding.task {url : String} {past : List NetOp} {c : Call} {metrics : Option Metrics}
    {ran : UrlRequest × List NetOp} (responding : Responding url past c) (idle : c.net = [])
    (done : c.request.runTask metrics = some ran) : Responding url past { c with request := ran.1, net := ran.2 } := by
  refine responding.enter (runTask_quiet done) ?_
  rintro (inBody | concluding)
  · rcases (task_spec done).phase with kept | dead | ⟨early, _⟩
    · exact .inl (kept.trans inBody)
    · exact .inr (.inr (runTask_concludes done (by simp [inBody]) dead))
    · rcases early with same | same <;> rw [inBody] at same <;> cases same
  · rcases concluding with recorded | ⟨code, message, member⟩
    · exact .inr (.inl recorded)
    · rw [idle] at member
      cases member

theorem Responding.receive {url : String} {past : List NetOp} {c : Call} {cb : Callback} {next : UrlRequest}
    (responding : Responding url past c) (inv : CallInv c) (progress : c.InProgress past) (idle : c.net = [])
    (accepted : c.request.accepts cb = some next) :
    Responding url (past ++ (c.callbackOps cb).2.take 1) (c.receive cb next) := by
  have unpublished := responding.unpublished inv.opened
  have plain {ops : List NetOp} {request : UrlRequest} (same : c.callbackOps cb = (c.observer, ops))
      (quiet : ∀ op ∈ ops, op.fills = false ∧ op ≠ .storeHeaders ∧ op.countStored = none)
      (answered : c.Answered → Answered { c with request := request, net := ops }) :
      Responding url (past ++ (c.callbackOps cb).2.take 1) (c.receive cb request) := by
    have entered := progress.callback inv.opened idle accepted
    rw [Call.receive, same]
    rw [same] at entered
    exact @Responding.perform url past { c with request := request } ops (responding.enter quiet answered) inv.opened.claimed entered
  have claims {request : UrlRequest} {code : Int} {message : String} {rest : List NetOp} :
      Answered { c with request := request, net := .claimOutcome code message :: rest } :=
    .inr (.inr ⟨code, message, by simp⟩)
  cases cb with
  | onReceivedRedirect location head =>
    simp only [UrlRequest.accepts, Option.ite_none_right_eq_some, Option.some.injEq] at accepted
    obtain ⟨running, rfl⟩ := accepted
    simp only [Call.receive, callbackOps, RequestObserver.onReceivedRedirect]
    split
    · refine responding.respond (unpublished running) ?_ (.inr (.inr ?_))
      · split <;> simp [NetOp.fills, NetOp.countStored]
      · split <;> exact ⟨_, _, List.mem_cons_of_mem _ (List.mem_cons_of_mem _ List.mem_cons_self)⟩
    · exact responding.follow (unpublished running)
  | onResponseStarted head =>
    simp only [UrlRequest.accepts, Option.ite_none_right_eq_some, Option.some.injEq] at accepted
    obtain ⟨running, rfl⟩ := accepted
    refine responding.respond (unpublished running) ?_ (.inl rfl)
    simp [NetOp.fills, NetOp.countStored]
  | onReadCompleted chunk =>
    simp only [UrlRequest.accepts, Option.ite_none_right_eq_some, Option.some.injEq] at accepted
    obtain ⟨⟨inBody, _⟩, rfl⟩ := accepted
    refine plain rfl ?_ fun _ => .inl inBody
    simp [RequestObserver.onReadCompleted, NetOp.fills, NetOp.countStored]
  | onSucceeded =>
    refine plain rfl ?_ fun _ => claims
    simp [RequestObserver.onSucceeded, NetOp.fills, NetOp.countStored]
  | onError netError errorString errorToString =>
    refine plain rfl ?_ fun _ => claims
    simp [RequestObserver.onError, NetOp.fills, NetOp.countStored]
  | onMetricsCollected metrics =>
    simp only [UrlRequest.accepts, Option.ite_none_left_eq_some, Option.some.injEq] at accepted
    obtain ⟨_, rfl⟩ := accepted
    refine plain rfl ?_ ?_
    · simp [RequestObserver.onMetricsCollected, NetOp.fills, NetOp.countStored]
    · refine Or.imp id fun concluding => .inl ?_
      rcases concluding with recorded | ⟨code, message, member⟩
      · exact recorded
      · rw [idle] at member
        cases member

theorem Responding.step {url : String} {past : List NetOp} {c d : Call} {label : Label} (responding : Responding url past c)
    (inv : CallInv c) (progress : c.InProgress past) (stepped : c.step label = some d) :
    Responding url (past ++ c.performed label) d := by
  cases step_of stepped with
  | aside aside =>
    obtain ⟨quiet, net, phase, observer, outcome, _, state, _, _, response, published, _, _, _⟩ := aside
    rw [quiet, List.append_nil]
    have answered : c.Answered → d.Answered := by
      unfold Answered Concluding
      rw [phase, outcome, net]
      exact id
    obtain ⟨observed, finalUrl, atRest, strings, headers, counting, counted, uncounted⟩ := responding
    constructor
    · rwa [observer]
    · rwa [response]
    · rwa [net]
    · rw [published, response]
      exact fun now => (strings now).imp_right answered
    · rwa [net, state, published]
    · rwa [net, published]
    · rwa [response]
    · rwa [published]
  | @op op rest net =>
    rw [performed, ops, net]
    have same : { c with net := op :: rest } = c := by rw [← net]
    refine Responding.perform ?_ inv.opened.claimed (net ▸ progress)
    rwa [same]
  | @task metrics ran idle done =>
    rw [performed, ops, done]
    have entered := responding.task idle done
    exact @Responding.perform url past { c with request := ran.1 } ran.2 entered inv.opened.claimed (progress.task idle done)
  | callback idle accepted => exact responding.receive inv progress idle accepted

theorem responding_of_run {url : String} {maxRedirects : Int} {labels : List Label} {c : Call}
    (ran : machine.run (initial url maxRedirects) labels = some c) :
    CallInv c ∧ c.InProgress (machine.outputs performed (initial url maxRedirects) labels) ∧
      Responding url (machine.outputs performed (initial url maxRedirects) labels) c := by
  refine Machine.output_invariant (fun past c => CallInv c ∧ c.InProgress past ∧ Responding url past c)
    ⟨callInv_initial url maxRedirects, inProgress_initial url maxRedirects, responding_initial url maxRedirects⟩ ?_ ran
  intro past a label b held stepped
  obtain ⟨inv, progress, responding⟩ := held
  exact ⟨inv.step stepped, inProgress_step inv progress stepped, responding.step inv progress stepped⟩

theorem Responding.published_of_readable {url : String} {past : List NetOp} {c : Call} (responding : Responding url past c)
    (progress : c.InProgress past) (readable : c.shared.state ≠ .started) : c.shared.headersPublished = true := by
  cases state : c.shared.state with
  | started => exact absurd state readable
  | headers => exact responding.headers (.inr state)
  | done =>
    cases progress with
    | running _ _ running => exact absurd state running
    | finishing _ _ _ _ stored =>
      have far := stored.done.mpr state
      exact stored.published (by omega)

def Kept (c d : Call) (between : List NetOp) : Prop :=
  d.shared.headersPublished = true ∧ d.shared.response.settled = c.shared.response.settled ∧ redirected between = []

theorem perform_kept {b c : Call} {ops : List NetOp} (shared : b.shared = c.shared)
    (published : c.shared.headersPublished = true) (quiet : ∀ op ∈ ops, op.fills = false) :
    Kept c (b.perform ops) (ops.take 1) := by
  rw [← shared] at published
  cases ops with
  | nil => exact ⟨published, by rw [← shared]; rfl, rfl⟩
  | cons op rest =>
    have isQuiet := quiet op (by simp)
    refine ⟨?_, ?_, ?_⟩
    · exact (exec_headersPublished b op isQuiet).trans (by rw [published, Bool.true_or])
    · rw [← shared]
      exact exec_settled b op isQuiet fun _ => published
    · cases op with
      | onRedirect => cases isQuiet
      | _ => rfl

theorem Responding.kept_step {url : String} {past : List NetOp} {c d : Call} {label : Label}
    (responding : Responding url past c) (inv : CallInv c) (published : c.shared.headersPublished = true)
    (stepped : c.step label = some d) : Kept c d (c.performed label) := by
  cases step_of stepped with
  | aside aside => exact ⟨aside.published.trans published, by rw [aside.response], by rw [aside.silent]; rfl⟩
  | op net =>
    rw [performed, ops, net]
    exact perform_kept rfl published (net ▸ responding.atRest)
  | task idle done =>
    rw [performed, ops, done]
    exact perform_kept rfl published fun op member => (runTask_quiet done op member).1
  | @callback cb next idle accepted =>
    refine perform_kept rfl published ?_
    cases cb with
    | onReceivedRedirect | onResponseStarted =>
      simp only [UrlRequest.accepts, Option.ite_none_right_eq_some] at accepted
      rw [responding.unpublished inv.opened accepted.1] at published
      cases published
    | _ => simp [callbackOps, RequestObserver.onReadCompleted, RequestObserver.onSucceeded, RequestObserver.onError,
        RequestObserver.onMetricsCollected, NetOp.fills]

theorem Kept.trans {b c d : Call} {first second : List NetOp} (kept : Kept b c first) (later : Kept c d second) :
    Kept b d (first ++ second) := by
  obtain ⟨published, settled, none⟩ := later
  exact ⟨published, settled.trans kept.2.1, by rw [redirected, List.filterMap_append, ← redirected, ← redirected, kept.2.2, none]; rfl⟩

theorem kept_run {url : String} {maxRedirects : Int} {labels later : List Label} {c d : Call}
    (ran : machine.run (initial url maxRedirects) labels = some c) (published : c.shared.headersPublished = true)
    (ranOn : machine.run c later = some d) : Kept c d (machine.outputs performed c later) := by
  refine Machine.history_invariant (fun more d => Kept c d (machine.outputs performed c more)) ⟨published, rfl, rfl⟩ ?_ ranOn
  intro more a label b before kept stepped
  obtain ⟨inv, _, responding⟩ := responding_of_run (Machine.run_append.mpr ⟨c, ran, before⟩)
  rw [Machine.outputs_snoc label before]
  exact kept.trans (responding.kept_step inv kept.1 stepped)

end Call

end Cronet.Native
