import Cronet.Native.Publishing

namespace Cronet.Native

/-- What `FollowRedirect` has answered for each redirect it was called for, in order. -/
def answered (past : List NetOp) (answers : List Bool) : List (String × Bool) := (redirected past).zip answers

/-- The locations followed: `FollowRedirect` has posted `FollowDeferredRedirect` for them. -/
def followed (past : List NetOp) (answers : List Bool) : List String :=
  ((answered past answers).filter Prod.snd).map Prod.fst

def refused (past : List NetOp) (answers : List Bool) : List String :=
  ((answered past answers).filter fun answer => !answer.2).map Prod.fst

theorem zip_replicate {locations : List String} {answers : List Bool} {answer : Bool}
    (same : locations.length = answers.length) (all : ∀ b ∈ answers, b = answer) :
    locations.zip answers = locations.map (·, answer) := by
  induction locations generalizing answers with
  | nil => rfl
  | cons location locations ih =>
    cases answers with
    | nil => cases same
    | cons b answers =>
      rw [List.zip_cons_cons, List.map_cons, all b List.mem_cons_self, ih (Nat.succ.inj same) fun b member =>
        all b (List.mem_cons_of_mem _ member)]

section Answers

variable {past : List NetOp} {answers : List Bool}

theorem answered_all (same : (redirected past).length = answers.length) (all : false ∉ answers) :
    followed past answers = redirected past ∧ refused past answers = [] := by
  have pairs := zip_replicate same fun b member => by
    cases b with
    | false => exact absurd member all
    | true => rfl
  simp [followed, refused, answered, pairs, List.filter_map, Function.comp_def]

theorem answered_last (same : (redirected past).length = (answers ++ [false]).length) (all : false ∉ answers) :
    ∃ location, redirected past = followed past (answers ++ [false]) ++ [location] ∧
      refused past (answers ++ [false]) = [location] := by
  rw [List.length_append, List.length_singleton] at same
  rcases List.eq_nil_or_concat' (redirected past) with none | ⟨before, location, split⟩
  · rw [none] at same
    cases same
  · rw [split, List.length_append, List.length_singleton] at same
    have pairs := zip_replicate (Nat.succ.inj same) fun b member => by
      cases b with
      | false => exact absurd member all
      | true => rfl
    have whole : answered past (answers ++ [false]) = before.map (·, true) ++ [(location, false)] := by
      rw [answered, split, List.zip_append (Nat.succ.inj same), pairs]
      rfl
    refine ⟨location, ?_, ?_⟩
    · simp [followed, whole, split, List.filter_map, Function.comp_def]
    · simp [refused, whole, List.filter_map, Function.comp_def]

end Answers

namespace Call

/-- What `FollowRedirect` answers, where a step calls it. -/
def answers (c : Call) (label : Label) : List Bool :=
  if c.performed label = [.followRedirect] then [c.shared.mayPost] else []

structure Following (past : List NetOp) (answers : List Bool) (c : Call) : Prop where
  paired : (redirected past).length = answers.length + c.net.count .followRedirect
  asking : .followRedirect ∈ c.net → c.net = [.followRedirect] ∧ c.request.phase = .holding ∧ false ∉ answers
  earlier : false ∉ answers.dropLast
  /-- A redirect that is not followed is the last. -/
  stopped : false ∈ answers → c.follows = 0 ∧ (c.request.phase = .holding ∨ c.request.phase = .dead) ∧
    counts past = [] ∧ ∀ count, .setRedirectCount count ∉ c.net

theorem following_initial (url : String) (maxRedirects : Int) : Following [] [] (initial url maxRedirects) := by
  constructor <;> simp [initial, redirected]

theorem exec_pushes_no_follow (c : Call) (op : NetOp) : .followRedirect ∉ (c.exec op).2 := by
  cases op with
  | claimOutcome code message =>
    simp only [exec]
    split <;> simp [finishStores]
  | onData chunk =>
    simp only [exec]
    split <;> simp
  | _ => simp [exec]

theorem Following.ask {url : String} {past : List NetOp} {answers : List Bool} {c : Call} {rest : List NetOp}
    (following : Following past answers c) (inv : CallInv c) (responding : Responding url past c)
    (net : c.net = .followRedirect :: rest) :
    Following (past ++ [.followRedirect]) (answers ++ [c.shared.mayPost]) (c.perform (.followRedirect :: rest)) := by
  obtain ⟨only, holding, all⟩ := following.asking (net ▸ List.mem_cons_self)
  obtain rfl : rest = [] := by simpa [net] using only
  have asked : 1 ≤ c.follows := by simp [follows, only]
  have unpublished : counts past = [] := by
    apply responding.uncounted
    by_contra published
    rcases (responding.published (by simpa using published)).2 with inBody | concluding
    · rw [holding] at inBody
      cases inBody
    · have dropped := inv.opened.dropped holding concluding
      omega
  have sameRedirected : redirected (past ++ [.followRedirect]) = redirected past := by simp [redirected, NetOp.location]
  have idle : (c.perform [.followRedirect]).net = [] := rfl
  refine ⟨?_, ?_, ?_, ?_⟩
  · rw [sameRedirected, following.paired, idle, only, List.length_append]
    rfl
  · rw [idle]
    exact fun member => absurd member List.not_mem_nil
  · rwa [List.dropLast_concat]
  · intro member
    have kept : c.shared.mayPost = false := by
      rcases List.mem_append.mp member with before | now
      · exact absurd before all
      · exact (List.mem_singleton.mp now).symm
    have held := inv.opened.held holding
    refine ⟨?_, .inl holding, ?_, ?_⟩
    · have posted : (c.perform [.followRedirect]).follows = c.follows - 1 := by
        simp [follows, perform, exec, CallState.followRedirect, kept, post, UrlRequest.post, only]
      omega
    · simpa [counts, NetOp.countStored] using unpublished
    · rw [idle]
      exact fun count member => absurd member List.not_mem_nil

theorem Following.perform {past : List NetOp} {answers : List Bool} {c : Call} {ops : List NetOp}
    (following : Following past answers { c with net := ops }) (ran : c.request.ran ≤ c.request.posted.length)
    (quiet : ∀ op ∈ ops, op.fills = false) (other : ops.head? ≠ some .followRedirect) :
    Following (past ++ ops.take 1) answers (c.perform ops) := by
  cases ops with
  | nil => simpa [Call.perform] using following
  | cons op rest =>
    have isOther : op ≠ .followRedirect := fun same => other (congrArg some same)
    have sameRedirected : redirected (past ++ [op]) = redirected past := by
      have filled := quiet op List.mem_cons_self
      cases op with
      | onRedirect => cases filled
      | _ => simp [redirected, NetOp.location]
    have net : (c.perform (op :: rest)).net = (c.exec op).2 ++ rest := rfl
    have phase : (c.perform (op :: rest)).request.phase = c.request.phase := exec_phase c op
    have absent : .followRedirect ∉ op :: rest := by
      intro member
      have only := (following.asking member).1
      exact isOther (List.cons.inj only).1
    have none : .followRedirect ∉ (c.perform (op :: rest)).net := by
      rw [net]
      intro member
      rcases List.mem_append.mp member with pushed | later
      · exact exec_pushes_no_follow c op pushed
      · exact absent (List.mem_cons_of_mem _ later)
    change Following (past ++ [op]) answers (c.perform (op :: rest))
    refine ⟨?_, fun member => absurd member none, following.earlier, fun member => ?_⟩
    · rw [sameRedirected, following.paired, List.count_eq_zero.mpr none]
      exact congrArg (answers.length + ·) (List.count_eq_zero.mpr absent)
    · obtain ⟨noFollows, stuck, uncounted, noCount⟩ := following.stopped member
      have fewer := @exec_follows c op rest ran
      refine ⟨by omega, by rwa [phase], ?_, ?_⟩
      · cases op with
        | setRedirectCount count => exact absurd List.mem_cons_self (noCount count)
        | _ => simpa [counts, NetOp.countStored] using uncounted
      · rw [net]
        intro count member
        rcases List.mem_append.mp member with pushed | later
        · exact absurd (exec_pushes_quiet c op _ pushed).2.2 (by simp [NetOp.countStored])
        · exact noCount count (List.mem_cons_of_mem _ later)

theorem Following.enter {past : List NetOp} {answers : List Bool} {c : Call} {request : UrlRequest} {ops : List NetOp}
    (following : Following past answers c) (idle : c.net = [])
    (quiet : ∀ op ∈ ops, op ≠ .followRedirect ∧ op.countStored = none)
    (fewer : c.follows = 0 → c.request.phase = .holding ∨ c.request.phase = .dead →
      follows { c with request := request, net := ops } = 0 ∧ (request.phase = .holding ∨ request.phase = .dead)) :
    Following past answers { c with request := request, net := ops } where
  paired := by
    rw [following.paired, idle, List.count_eq_zero.mpr fun member => (quiet _ member).1 rfl]
    rfl
  asking member := absurd rfl (quiet _ member).1
  earlier := following.earlier
  stopped member := by
    obtain ⟨noFollows, stuck, uncounted, _⟩ := following.stopped member
    obtain ⟨none, still⟩ := fewer noFollows stuck
    exact ⟨none, still, uncounted, fun count member => absurd (quiet _ member).2 (by simp [NetOp.countStored])⟩

theorem Following.task {past : List NetOp} {answers : List Bool} {c : Call} {metrics : Option Metrics}
    {ran : UrlRequest × List NetOp} (following : Following past answers c) (idle : c.net = [])
    (done : c.request.runTask metrics = some ran) : Following past answers { c with request := ran.1, net := ran.2 } := by
  have spec := task_spec done
  refine following.enter idle (fun op member => ⟨fun same => spec.noFollow (same ▸ member), (runTask_quiet done op member).2.2⟩) ?_
  intro noFollows stuck
  have was : (c.request.posted.drop c.request.ran).count .followDeferredRedirect = 0 := by
    simpa [follows, idle] using noFollows
  have now : (c.request.posted.drop ran.1.ran).count .followDeferredRedirect = 0 := Nat.le_zero.mp (was ▸ spec.follows)
  refine ⟨by simp [follows, spec.posted, now, List.count_eq_zero.mpr spec.noFollow], ?_⟩
  rcases spec.phase with same | dead | ⟨early, running⟩
  · rwa [same]
  · exact .inr dead
  · rcases stuck with holding | dead
    · have less := spec.released holding running
      omega
    · rw [dead] at early
      rcases early with same | same <;> cases same

theorem Following.of_all {past : List NetOp} {answers : List Bool} {c : Call} (all : false ∉ answers)
    (paired : (redirected past).length = answers.length + c.net.count .followRedirect)
    (asking : .followRedirect ∈ c.net → c.net = [.followRedirect] ∧ c.request.phase = .holding) :
    Following past answers c where
  paired := paired
  asking member := ⟨(asking member).1, (asking member).2, all⟩
  earlier member := all ((List.dropLast_sublist _).subset member)
  stopped member := absurd member all

theorem Following.all {past : List NetOp} {answers : List Bool} {c : Call} (following : Following past answers c)
    (underWay : c.request.phase = .running ∨ c.request.phase = .body) : false ∉ answers := by
  intro member
  rcases (following.stopped member).2.1 with stuck | stuck <;> rcases underWay with same | same <;> rw [stuck] at same <;> cases same

theorem Following.plain {past : List NetOp} {answers : List Bool} {c : Call} {ops : List NetOp}
    (following : Following past answers c) (idle : c.net = []) (all : false ∉ answers)
    (quiet : ∀ op ∈ ops, op.location = none ∧ op ≠ .followRedirect) (b : Call) :
    Following (past ++ ops.take 1) answers (b.perform ops) := by
  have sameRedirected : redirected (past ++ ops.take 1) = redirected past := by
    have none : redirected (ops.take 1) = [] := List.filterMap_eq_nil_iff.mpr fun op member =>
      (quiet op (List.mem_of_mem_take member)).1
    rw [redirected, List.filterMap_append, ← redirected, ← redirected, none, List.append_nil]
  have absent : .followRedirect ∉ (b.perform ops).net := by
    cases ops with
    | nil => exact List.not_mem_nil
    | cons op rest =>
      intro member
      rcases List.mem_append.mp member with pushed | later
      · exact exec_pushes_no_follow b op pushed
      · exact (quiet _ (List.mem_cons_of_mem _ later)).2 rfl
  refine .of_all all ?_ fun member => absurd member absent
  rw [sameRedirected, following.paired, idle, List.count_eq_zero.mpr absent]
  rfl

theorem Following.receive {past : List NetOp} {answers : List Bool} {c : Call} {cb : Callback} {next : UrlRequest}
    (following : Following past answers c) (inv : CallInv c) (idle : c.net = [])
    (accepted : c.request.accepts cb = some next) :
    Following (past ++ (c.callbackOps cb).2.take 1) answers (c.receive cb next) := by
  cases cb with
  | onReceivedRedirect location head =>
    simp only [UrlRequest.accepts, Option.ite_none_right_eq_some, Option.some.injEq] at accepted
    obtain ⟨running, rfl⟩ := accepted
    have all := following.all (.inl running)
    simp only [Call.receive, callbackOps, RequestObserver.onReceivedRedirect]
    split
    · refine following.plain idle all ?_ _
      simp only [RequestObserver.responseOps]
      split <;> simp [NetOp.location]
    · refine .of_all all ?_ fun _ => ⟨rfl, rfl⟩
      have next : redirected (past ++ [.onRedirect location]) = redirected past ++ [location] := by
        simp [redirected, NetOp.location]
      change (redirected (past ++ [.onRedirect location])).length = answers.length + 1
      rw [next, List.length_append, following.paired, idle]
      rfl
  | onResponseStarted head =>
    simp only [UrlRequest.accepts, Option.ite_none_right_eq_some, Option.some.injEq] at accepted
    refine following.plain idle (following.all (.inl accepted.1)) ?_ _
    simp [callbackOps, RequestObserver.onResponseStarted, RequestObserver.responseOps, NetOp.location]
  | onReadCompleted chunk =>
    simp only [UrlRequest.accepts, Option.ite_none_right_eq_some, Option.some.injEq] at accepted
    refine following.plain idle (following.all (.inr accepted.1.1)) ?_ _
    simp [callbackOps, RequestObserver.onReadCompleted, NetOp.location]
  | onSucceeded =>
    simp only [UrlRequest.accepts, Option.ite_none_right_eq_some, Option.some.injEq] at accepted
    refine following.plain idle (following.all (.inr accepted.1.1)) ?_ _
    simp [callbackOps, RequestObserver.onSucceeded, NetOp.location]
  | onError netError errorString errorToString =>
    simp only [UrlRequest.accepts, Option.ite_none_right_eq_some, Option.some.injEq] at accepted
    refine following.plain idle (following.all accepted.1) ?_ _
    simp [callbackOps, RequestObserver.onError, NetOp.location]
  | onMetricsCollected metrics =>
    simp only [UrlRequest.accepts, Option.ite_none_left_eq_some, Option.some.injEq] at accepted
    obtain ⟨_, rfl⟩ := accepted
    have begun : Following past answers { c with net := RequestObserver.onMetricsCollected metrics } := by
      refine following.enter idle ?_ fun noFollows stuck => ⟨?_, stuck⟩
      · simp [RequestObserver.onMetricsCollected, NetOp.countStored]
      · simpa [follows, idle, RequestObserver.onMetricsCollected] using noFollows
    exact begun.perform inv.opened.ran (by simp [RequestObserver.onMetricsCollected, NetOp.fills])
      (by simp [RequestObserver.onMetricsCollected])

theorem answers_other {c : Call} {label : Label} (other : (c.ops label).head? ≠ some .followRedirect) : c.answers label = [] := by
  refine if_neg fun first => other ?_
  unfold performed at first
  cases ops : c.ops label with
  | nil =>
    rw [ops] at first
    cases first
  | cons op rest =>
    rw [ops] at first
    exact congrArg some (List.cons.inj first).1

theorem Following.step {url : String} {past : List NetOp} {answers : List Bool} {c d : Call} {label : Label}
    (following : Following past answers c) (inv : CallInv c) (responding : Responding url past c)
    (stepped : c.step label = some d) :
    Following (past ++ c.performed label) (answers ++ c.answers label) d := by
  cases step_of stepped with
  | aside aside =>
    have silent : c.answers label = [] := by rw [Call.answers, aside.silent]; rfl
    obtain ⟨paired, asking, earlier, stopped⟩ := following
    rw [silent, aside.silent, List.append_nil, List.append_nil]
    constructor
    · rwa [aside.net]
    · rwa [aside.net, aside.phase]
    · exact earlier
    · rwa [aside.follows, aside.phase, aside.net]
  | @op op rest net =>
    have same : { c with net := op :: rest } = c := by rw [← net]
    by_cases asks : op = .followRedirect
    · subst asks
      have performs : c.performed .op = [.followRedirect] := by rw [performed, ops, net]; rfl
      rw [Call.answers, performs, if_pos rfl]
      exact following.ask inv responding net
    · have silent : c.answers .op = [] := answers_other fun first => asks (by simpa [ops, net] using first)
      rw [silent, List.append_nil, performed, ops, net]
      refine @Following.perform past answers c (op :: rest) (by rwa [same]) inv.opened.ran (net ▸ responding.atRest) ?_
      exact fun first => asks (Option.some.inj first)
  | @task metrics ran idle done =>
    have noFollow := (task_spec done).noFollow
    have ops : c.ops (.task metrics) = ran.2 := by rw [ops, done]; rfl
    have other : ran.2.head? ≠ some .followRedirect := fun first => noFollow (List.mem_of_head? first)
    have silent : c.answers (.task metrics) = [] := answers_other (ops ▸ other)
    rw [silent, List.append_nil, performed, ops]
    have within : ran.1.ran ≤ ran.1.posted.length := (task_spec done).posted ▸ (task_spec done).within
    exact @Following.perform past answers { c with request := ran.1 } ran.2 (following.task idle done) within
      (fun op member => (runTask_quiet done op member).1) other
  | @callback cb next idle accepted =>
    have silent : c.answers (.callback cb) = [] := by
      refine answers_other fun first => ?_
      cases cb with
      | onReceivedRedirect location head =>
        simp only [ops, callbackOps, RequestObserver.onReceivedRedirect, RequestObserver.responseOps] at first
        split at first <;> simp at first
      | _ => simp [ops, callbackOps, RequestObserver.onResponseStarted, RequestObserver.responseOps,
          RequestObserver.onReadCompleted, RequestObserver.onSucceeded, RequestObserver.onError,
          RequestObserver.onMetricsCollected] at first
    rw [silent, List.append_nil]
    exact following.receive inv idle accepted

def performedIn (url : String) (maxRedirects : Int) (labels : List Label) : List NetOp :=
  machine.outputs performed (initial url maxRedirects) labels

def followedIn (url : String) (maxRedirects : Int) (labels : List Label) : List String :=
  followed (performedIn url maxRedirects labels) (machine.outputs answers (initial url maxRedirects) labels)

def refusedIn (url : String) (maxRedirects : Int) (labels : List Label) : List String :=
  refused (performedIn url maxRedirects labels) (machine.outputs answers (initial url maxRedirects) labels)

section Run

variable {url : String} {maxRedirects : Int} {labels : List Label} {c : Call}

theorem following_of_run (ran : machine.run (initial url maxRedirects) labels = some c) :
    Following (performedIn url maxRedirects labels) (machine.outputs answers (initial url maxRedirects) labels) c := by
  refine Machine.history_invariant (fun labels c => Following (performedIn url maxRedirects labels)
    (machine.outputs answers (initial url maxRedirects) labels) c) (following_initial url maxRedirects) ?_ ran
  intro labels a label b before held stepped
  obtain ⟨inv, _, responding⟩ := responding_of_run before
  rw [performedIn, Machine.outputs_snoc label before, Machine.outputs_snoc label before]
  exact held.step inv responding stepped

/-- A published response has no redirect still to be asked for: all have been followed, or all but a last one,
    and then no count is ever stored. -/
theorem followed_of_published (ran : machine.run (initial url maxRedirects) labels = some c)
    (published : c.shared.headersPublished = true) :
    false ∉ machine.outputs answers (initial url maxRedirects) labels ∧
      followedIn url maxRedirects labels = redirected (performedIn url maxRedirects labels) ∧
      refusedIn url maxRedirects labels = [] ∨
    false ∈ machine.outputs answers (initial url maxRedirects) labels ∧ ∃ location,
      redirected (performedIn url maxRedirects labels) = followedIn url maxRedirects labels ++ [location] ∧
      refusedIn url maxRedirects labels = [location] := by
  obtain ⟨inv, _, responding⟩ := responding_of_run ran
  have following := following_of_run ran
  have absent : .followRedirect ∉ c.net := by
    intro member
    obtain ⟨only, holding, _⟩ := following.asking member
    rcases (responding.published published).2 with inBody | concluding
    · rw [holding] at inBody
      cases inBody
    · have dropped := inv.opened.dropped holding concluding
      simp [follows, only] at dropped
  have paired := following.paired
  rw [List.count_eq_zero.mpr absent, Nat.add_zero] at paired
  unfold followedIn refusedIn
  by_cases stopped : false ∈ machine.outputs answers (initial url maxRedirects) labels
  · right
    refine ⟨stopped, ?_⟩
    have earlier := following.earlier
    rcases List.eq_nil_or_concat' (machine.outputs answers (initial url maxRedirects) labels) with none | ⟨before, last, split⟩
    · rw [none] at stopped
      cases stopped
    · rw [split, List.dropLast_concat] at earlier
      rw [split, List.mem_append, or_iff_right earlier, List.mem_singleton] at stopped
      subst stopped
      rw [split] at paired ⊢
      exact answered_last paired earlier
  · exact .inl ⟨stopped, answered_all paired stopped⟩

theorem uncounted_of_refused (ran : machine.run (initial url maxRedirects) labels = some c)
    (stopped : false ∈ machine.outputs answers (initial url maxRedirects) labels) :
    counts (performedIn url maxRedirects labels) = [] := ((following_of_run ran).stopped stopped).2.2.1

theorem counted_of_run (ran : machine.run (initial url maxRedirects) labels = some c) :
    c.shared.response.view.redirectCount = if counts (performedIn url maxRedirects labels) = [] then 0
      else (redirected (performedIn url maxRedirects labels)).length := (responding_of_run ran).2.2.counted

end Run

end Call

def ResponseView.early (v : ResponseView) : ResponseView :=
  { v with errorCode := 0, errorMessage := none, metrics := .zero }

namespace Call

/-- A response read here reads the same in every later state, and tells the redirects followed. -/
structure Settled (url : String) (followed : List String) (c : Call) : Prop where
  stays : ∀ later d, machine.run c later = some d → d.shared.response.view.early = c.shared.response.view.early
  redirectCount : c.shared.response.view.redirectCount = followed.length
  finalUrl : c.shared.response.view.finalUrl = some (followed.getLastD url)

theorem early_eq {r s : ResponseStorage} (settled : r.settled = s.settled)
    (count : r.view.redirectCount = s.view.redirectCount) : r.view.early = s.view.early := by
  have same : r.view.early = { r.settled.view with redirectCount := r.view.redirectCount } := rfl
  rw [same, settled, count]
  rfl

section Run

variable {url : String} {maxRedirects : Int} {labels : List Label} {c : Call}

theorem stays_of_count (ran : machine.run (initial url maxRedirects) labels = some c)
    (published : c.shared.headersPublished = true)
    (due : redirected (performedIn url maxRedirects labels) = [] ∨ counts (performedIn url maxRedirects labels) ≠ [] ∨
      false ∈ machine.outputs answers (initial url maxRedirects) labels) :
    ∀ later d, machine.run c later = some d → d.shared.response.view.early = c.shared.response.view.early := by
  intro later d ranOn
  have whole := Machine.run_append.mpr ⟨c, ran, ranOn⟩
  obtain ⟨_, settled, none⟩ := kept_run ran published ranOn
  have performs : performedIn url maxRedirects (labels ++ later) =
      performedIn url maxRedirects labels ++ machine.outputs performed c later := Machine.outputs_append ran
  have sameRedirected : redirected (performedIn url maxRedirects (labels ++ later)) =
      redirected (performedIn url maxRedirects labels) := by
    rw [performs, redirected, List.filterMap_append, ← redirected, ← redirected, none, List.append_nil]
  refine early_eq settled ?_
  rw [counted_of_run ran, counted_of_run whole, sameRedirected]
  rcases due with direct | stored | stopped
  · simp [direct]
  · have still : counts (performedIn url maxRedirects (labels ++ later)) ≠ [] := by
      rw [performs, counts, List.filterMap_append, ← counts]
      exact fun empty => stored (List.append_eq_nil_iff.mp empty).1
    rw [if_neg stored, if_neg still]
  · have stays : false ∈ machine.outputs answers (initial url maxRedirects) (labels ++ later) := by
      rw [Machine.outputs_append ran]
      exact List.mem_append_left _ stopped
    rw [if_pos (uncounted_of_refused ran stopped), if_pos (uncounted_of_refused whole stays)]

/-- An owner can find the count of redirects unset, and a location that was not followed. -/
theorem response_settled_iff (url : String) (maxRedirects : Int) (labels : List Label) (c : Call)
    (ran : machine.run (initial url maxRedirects) labels = some c) (readable : c.shared.responsePointer.isSome = true) :
    Settled url (followedIn url maxRedirects labels) c ↔
      (followedIn url maxRedirects labels = [] ∨ counts (performedIn url maxRedirects labels) ≠ []) ∧
      ∀ location ∈ refusedIn url maxRedirects labels, location = (followedIn url maxRedirects labels).getLastD url := by
  obtain ⟨_, progress, responding⟩ := responding_of_run ran
  have started : c.shared.state ≠ .started := by
    intro started
    simp [CallState.responsePointer, started] at readable
  have published := responding.published_of_readable progress started
  have counted := counted_of_run ran
  have located : c.shared.response.view.finalUrl = some ((redirected (performedIn url maxRedirects labels)).getLastD url) := by
    rw [(responding.published published).1.finalUrl, responding.finalUrl]
    rfl
  rcases followed_of_published ran published with ⟨_, all, none⟩ | ⟨stopped, location, whole, only⟩
  · rw [none, all]
    constructor
    · intro settled
      refine ⟨?_, fun _ member => absurd member List.not_mem_nil⟩
      by_contra early
      push Not at early
      rw [if_pos early.2, settled.redirectCount] at counted
      exact early.1 (List.eq_nil_of_length_eq_zero counted)
    · rintro ⟨due, _⟩
      refine ⟨stays_of_count ran published (due.imp_right .inl), ?_, located⟩
      rcases due with direct | stored
      · rw [counted, direct, List.length_nil, ite_self]
      · rw [counted, if_neg stored]
  · have uncounted := uncounted_of_refused ran stopped
    rw [if_pos uncounted] at counted
    rw [whole, List.getLastD_concat] at located
    rw [only, List.forall_mem_singleton]
    constructor
    · intro settled
      refine ⟨.inl (List.eq_nil_of_length_eq_zero (settled.redirectCount.symm.trans counted)), ?_⟩
      exact Option.some.inj (located.symm.trans settled.finalUrl)
    · rintro ⟨due, same⟩
      have direct := due.resolve_right fun stored => stored uncounted
      refine ⟨stays_of_count ran published (.inr (.inr stopped)), ?_, by rw [located, same]⟩
      rw [counted, direct]
      rfl

end Run

theorem response_settled_counted :
    ∃ labels c, machine.run (initial "http://a/" 20) labels = some c ∧
      followedIn "http://a/" 20 labels = ["http://b/"] ∧ Settled "http://a/" ["http://b/"] c := by
  let head : ResponseHead := ⟨200, "OK", none, false, "h2", ""⟩
  let labels : List Label := [.registerCall true, .construct, .attachRequest, .start, .task none,
    .callback (.onReceivedRedirect "http://b/" head), .op, .task none, .callback (.onResponseStarted head), .op, .op, .op]
  have runs : ∃ c, machine.run (initial "http://a/" 20) labels = some c ∧ c.shared.responsePointer.isSome = true :=
    ⟨_, rfl, rfl⟩
  obtain ⟨c, ran, readable⟩ := runs
  have follows : followedIn "http://a/" 20 labels = ["http://b/"] := by decide
  have stored : counts (performedIn "http://a/" 20 labels) ≠ [] := by decide
  have all : refusedIn "http://a/" 20 labels = [] := by decide
  have settled := (response_settled_iff "http://a/" 20 labels c ran readable).mpr
    ⟨.inr stored, by rw [all]; exact fun _ member => absurd member List.not_mem_nil⟩
  rw [follows] at settled
  exact ⟨labels, c, ran, follows, settled⟩

/-- A redirect is followed, and its response is read before the count of redirects is stored. -/
theorem redirect_uncounted_at_headers :
    ∃ labels c d, machine.run (initial "http://a/" 20) labels = some c ∧ c.shared.state = .headers ∧
      machine.run c [.op, .op] = some d ∧
      c.shared.response.view.redirectCount = 0 ∧ d.shared.response.view.redirectCount = 1 ∧
      ¬ Settled "http://a/" (followedIn "http://a/" 20 labels) c := by
  let head : ResponseHead := ⟨200, "OK", none, false, "h2", ""⟩
  refine ⟨[.registerCall true, .construct, .attachRequest, .start, .task none,
    .callback (.onReceivedRedirect "http://b/" head), .op, .task none, .callback (.onResponseStarted head), .op],
    _, _, rfl, rfl, rfl, rfl, rfl, ?_⟩
  intro settled
  exact absurd settled.redirectCount (by decide)

/-- A call is cancelled while its redirect arrives, and says that it came to where it never went. -/
example :
    ∃ labels c, machine.run (initial "http://a/" 20) labels = some c ∧ c.shared.state = .done ∧
      followedIn "http://a/" 20 labels = [] ∧ c.shared.response.view.finalUrl = some "http://b/" := by
  let head : ResponseHead := ⟨302, "Found", none, false, "h2", ""⟩
  refine ⟨[.registerCall true, .construct, .attachRequest, .start, .task none, .cancel .handle,
    .callback (.onReceivedRedirect "http://b/" head), .op, .task none, .op, .op, .op, .op, .op], _, rfl, ?_⟩
  decide

end Call

end Cronet.Native
