import Cronet.Native.Backpressure

namespace Cronet.Native

namespace Call

def follows (c : Call) : Nat :=
  (c.request.posted.drop c.request.ran).count .followDeferredRedirect + c.net.count .followRedirect

def Concluding (c : Call) : Prop :=
  c.outcome.isSome = true ∨ ∃ code message, NetOp.claimOutcome code message ∈ c.net

/-- A request that may still bring a response or data has no outcome: only a redirect held for
    good and a request that is over have one. -/
structure OpenInv (c : Call) : Prop where
  claimed : c.shared.outcomeClaimed = c.outcome.isSome
  opened : c.request.phase = .idle ∨ c.request.phase = .running ∨ c.request.phase = .body → ¬ Concluding c
  settled : c.request.phase ≠ .holding → c.request.phase ≠ .dead → c.follows = 0
  held : c.request.phase = .holding → c.follows ≤ 1
  dropped : c.request.phase = .holding → Concluding c → c.follows = 0
  ran : c.request.ran ≤ c.request.posted.length

theorem openInv_initial (url : String) (maxRedirects : Int) : OpenInv (initial url maxRedirects) := by
  constructor <;> simp [initial, UrlRequest.initial, CallState.initial, Concluding, follows]

theorem follows_post {c : Call} {tasks : List Task} (ran : c.request.ran ≤ c.request.posted.length) :
    (c.post tasks).follows = c.follows + tasks.count .followDeferredRedirect := by
  simp only [follows, post, UrlRequest.post, List.drop_append_of_le_length ran, List.count_append]
  omega

/-- An operation that neither claims an outcome nor stores a part of it. -/
structure Quiet (c : Call) (op : NetOp) : Prop where
  outcome : (c.exec op).1.outcome = c.outcome
  claimed : (c.exec op).1.shared.outcomeClaimed = c.shared.outcomeClaimed
  complete : (c.exec op).1.shared.body.bodyComplete = c.shared.body.bodyComplete
  errorCode : (c.exec op).1.shared.response.view.errorCode = c.shared.response.view.errorCode
  pushes : ∀ next ∈ (c.exec op).2, next = .signalProgress ∨ next = .readData

theorem exec_quiet (c : Call) {op : NetOp} (noClaim : ∀ code message, op ≠ .claimOutcome code message)
    (noComplete : op ≠ .completeBody) (noStore : ∀ code, op ≠ .storeErrorCode code) : Quiet c op := by
  cases op with
  | claimOutcome code message => exact absurd rfl (noClaim code message)
  | completeBody => exact absurd rfl noComplete
  | storeErrorCode code => exact absurd rfl (noStore code)
  | publishUnpublished =>
    by_cases published : c.shared.headersPublished = true <;> constructor <;> simp [exec, published]
  | onData chunk =>
    constructor <;> simp [exec, Body.onData]
    split <;> simp
  | _ => constructor <;> simp [exec, destroyRequest, post, CallState.signalProgress]

theorem exec_follows {c : Call} {op : NetOp} {rest : List NetOp} (ran : c.request.ran ≤ c.request.posted.length) :
    (c.perform (op :: rest)).follows ≤ follows { c with net := op :: rest } := by
  have posts := fun tasks => @follows_post c tasks ran
  cases op with
  | followRedirect =>
    have one : c.shared.followRedirect.count .followDeferredRedirect ≤ 1 := by
      unfold CallState.followRedirect
      split <;> simp
    have moved := posts c.shared.followRedirect
    simp only [follows, perform, exec, post, UrlRequest.post, List.nil_append, List.count_cons_self] at moved ⊢
    omega
  | readData =>
    have plain : c.shared.readData.count .followDeferredRedirect = 0 := by
      unfold CallState.readData
      split <;> simp
    have moved := posts c.shared.readData
    simp [follows, perform, exec, post, UrlRequest.post, plain] at moved ⊢
    omega
  | destroyRequest flag =>
    have plain : (c.shared.destroyRequest flag).2.count .followDeferredRedirect = 0 := by
      unfold CallState.destroyRequest
      split <;> simp
    have moved := posts (c.shared.destroyRequest flag).2
    simp [follows, perform, exec, destroyRequest, post, UrlRequest.post, plain] at moved ⊢
    omega
  | claimOutcome code message =>
    simp only [follows, perform, exec]
    split <;> simp [finishStores]
  | publishUnpublished =>
    simp only [follows, perform, exec]
    split <;> simp
  | onData chunk =>
    simp only [follows, perform, exec]
    split <;> simp
  | _ => simp [follows, perform, exec]

/-- Claiming an outcome is what concluding leads to, and nothing else does. -/
theorem exec_concluding {c : Call} {op : NetOp} {rest : List NetOp}
    (concludes : Concluding (c.perform (op :: rest))) : Concluding { c with net := op :: rest } := by
  by_cases claims : ∃ code message, op = .claimOutcome code message
  · obtain ⟨code, message, rfl⟩ := claims
    exact .inr ⟨code, message, by simp⟩
  · push Not at claims
    have outcome : (c.exec op).1.outcome = c.outcome ∧ ∀ code message, .claimOutcome code message ∉ (c.exec op).2 := by
      by_cases quiet : op = .completeBody ∨ ∃ code, op = .storeErrorCode code
      · rcases quiet with rfl | ⟨code, rfl⟩ <;> simp [exec]
      · push Not at quiet
        have spec := exec_quiet c claims quiet.1 quiet.2
        refine ⟨spec.outcome, fun code message member => ?_⟩
        rcases spec.pushes _ member with same | same <;> cases same
    rcases concludes with some | ⟨code, message, member⟩
    · exact .inl (outcome.1 ▸ some)
    · rcases List.mem_append.mp member with pushed | later
      · exact absurd pushed (outcome.2 code message)
      · exact .inr ⟨code, message, List.mem_cons_of_mem _ later⟩

theorem exec_claimed {c : Call} (op : NetOp) (claimed : c.shared.outcomeClaimed = c.outcome.isSome) :
    (c.exec op).1.shared.outcomeClaimed = (c.exec op).1.outcome.isSome := by
  by_cases claims : ∃ code message, op = .claimOutcome code message
  · obtain ⟨code, message, rfl⟩ := claims
    by_cases already : c.shared.outcomeClaimed = true
    · simpa [exec, already] using claimed
    · simp [exec, already]
  · push Not at claims
    by_cases quiet : op = .completeBody ∨ ∃ code, op = .storeErrorCode code
    · rcases quiet with rfl | ⟨code, rfl⟩ <;> exact claimed
    · push Not at quiet
      have spec := exec_quiet c claims quiet.1 quiet.2
      rw [spec.outcome, spec.claimed, claimed]

theorem OpenInv.perform {c : Call} {ops : List NetOp} (inv : OpenInv { c with net := ops }) :
    OpenInv (c.perform ops) := by
  cases ops with
  | nil => exact inv
  | cons op rest =>
    have phase : (c.perform (op :: rest)).request.phase = c.request.phase := exec_phase c op
    have ran : c.request.ran ≤ c.request.posted.length := inv.ran
    have fewer := @exec_follows c op rest ran
    refine ⟨exec_claimed op inv.claimed, ?_, ?_, ?_, ?_, exec_ran op inv.ran⟩
    · rw [phase]
      exact fun isOpen concludes => inv.opened isOpen (exec_concluding concludes)
    · rw [phase]
      exact fun loose alive => Nat.le_zero.mp (inv.settled loose alive ▸ fewer)
    · rw [phase]
      exact fun holding => Nat.le_trans fewer (inv.held holding)
    · rw [phase]
      exact fun holding concludes => Nat.le_zero.mp (inv.dropped holding (exec_concluding concludes) ▸ fewer)

theorem not_concluding {c : Call} (idle : c.net = []) : ¬ Concluding c ↔ c.outcome = none := by
  simp [Concluding, idle]

theorem OpenInv.task {c : Call} {metrics : Option Metrics} {ran : UrlRequest × List NetOp} (inv : OpenInv c)
    (idle : c.net = []) (done : c.request.runTask metrics = some ran) :
    OpenInv { c with request := ran.1, net := ran.2 } := by
  have spec := task_spec done
  have was : c.follows = (c.request.posted.drop c.request.ran).count .followDeferredRedirect := by
    simp [follows, idle]
  have now : follows { c with request := ran.1, net := ran.2 } =
      (c.request.posted.drop ran.1.ran).count .followDeferredRedirect := by
    simp [follows, spec.posted, List.count_eq_zero.mpr spec.noFollow]
  have fewer := spec.follows
  rw [← was, ← now] at fewer
  have kept : ran.1.phase ≠ .dead → Concluding { c with request := ran.1, net := ran.2 } → Concluding c := by
    rintro alive (some | ⟨code, message, member⟩)
    · exact .inl some
    · simp [spec.silent alive] at member
  have released : c.request.phase = .holding → ran.1.phase = .running →
      ¬ Concluding c ∧ follows { c with request := ran.1, net := ran.2 } = 0 := by
    intro holding running
    have less := spec.released holding running
    rw [← was, ← now] at less
    have one := inv.held holding
    exact ⟨fun concludes => by simp [inv.dropped holding concludes] at less, by omega⟩
  refine ⟨inv.claimed, ?_, ?_, ?_, ?_, spec.posted ▸ spec.within⟩
  · intro opened concludes
    have alive : ran.1.phase ≠ .dead := fun dead => by
      rcases opened with early | early | early <;> exact absurd (early.symm.trans dead) nofun
    rcases spec.phase with same | dead | ⟨from_idle | from_holding, running⟩
    · exact inv.opened (same ▸ opened) (kept alive concludes)
    · exact alive dead
    · exact inv.opened (.inl from_idle) (kept alive concludes)
    · exact (released from_holding running).1 (kept alive concludes)
  · intro loose alive
    rcases spec.phase with same | dead | ⟨from_idle | from_holding, running⟩
    · exact Nat.le_zero.mp (inv.settled (same ▸ loose) (same ▸ alive) ▸ fewer)
    · exact absurd dead alive
    · exact Nat.le_zero.mp (inv.settled (by simp [from_idle]) (by simp [from_idle]) ▸ fewer)
    · exact (released from_holding running).2
  · intro holding
    rcases spec.phase with same | dead | ⟨_, running⟩
    · exact Nat.le_trans fewer (inv.held (same.symm.trans holding))
    · simp [dead] at holding
    · simp [running] at holding
  · intro holding concludes
    rcases spec.phase with same | dead | ⟨_, running⟩
    · have alive : ran.1.phase ≠ .dead := fun dead => by simp [dead] at holding
      exact Nat.le_zero.mp (inv.dropped (same.symm.trans holding) (kept alive concludes) ▸ fewer)
    · simp [dead] at holding
    · simp [running] at holding

theorem OpenInv.receive {c : Call} {cb : Callback} {next : UrlRequest} (inv : OpenInv c) (idle : c.net = [])
    (accepted : c.request.accepts cb = some next) : OpenInv (c.receive cb next) := by
  unfold Call.receive
  apply OpenInv.perform
  have was : c.follows = (c.request.posted.drop c.request.ran).count .followDeferredRedirect := by
    simp [follows, idle]
  cases cb with
  | onReceivedRedirect location head =>
    simp only [UrlRequest.accepts, Option.ite_none_right_eq_some, Option.some.injEq] at accepted
    obtain ⟨running, rfl⟩ := accepted
    have none_left := was.symm.trans (inv.settled (by simp [running]) (by simp [running]))
    have unclaimed := (not_concluding idle).mp (inv.opened (.inr (.inl running)))
    refine ⟨inv.claimed, by simp, by simp, fun _ => ?_, fun _ concludes => ?_, inv.ran⟩
    · simp only [follows, none_left, callbackOps, RequestObserver.onReceivedRedirect, RequestObserver.responseOps]
      split
      · split <;> simp
      · simp
    · simp only [follows, none_left, Concluding, unclaimed, callbackOps, RequestObserver.onReceivedRedirect,
        RequestObserver.responseOps] at concludes ⊢
      split at concludes
      · rename_i limit
        simp only [limit, ↓reduceIte]
        split <;> simp
      · simp at concludes
  | onResponseStarted head =>
    simp only [UrlRequest.accepts, Option.ite_none_right_eq_some, Option.some.injEq] at accepted
    obtain ⟨running, rfl⟩ := accepted
    have none_left := was.symm.trans (inv.settled (by simp [running]) (by simp [running]))
    have unclaimed := (not_concluding idle).mp (inv.opened (.inr (.inl running)))
    refine ⟨inv.claimed, fun _ => ?_, fun _ _ => ?_, by simp, by simp, inv.ran⟩
    · simp [Concluding, unclaimed, callbackOps, RequestObserver.onResponseStarted, RequestObserver.responseOps]
    · simp [follows, none_left, callbackOps, RequestObserver.onResponseStarted, RequestObserver.responseOps]
  | onReadCompleted chunk =>
    simp only [UrlRequest.accepts, Option.ite_none_right_eq_some, Option.some.injEq] at accepted
    obtain ⟨⟨inBody, _⟩, rfl⟩ := accepted
    have none_left := was.symm.trans (inv.settled (by simp [inBody]) (by simp [inBody]))
    have unclaimed := (not_concluding idle).mp (inv.opened (.inr (.inr inBody)))
    refine ⟨inv.claimed, fun _ => ?_, fun _ _ => ?_, by simp [inBody], by simp [inBody], inv.ran⟩
    · simp [Concluding, unclaimed, callbackOps, RequestObserver.onReadCompleted]
    · simp [follows, none_left, callbackOps, RequestObserver.onReadCompleted]
  | onSucceeded =>
    simp only [UrlRequest.accepts, Option.ite_none_right_eq_some, Option.some.injEq] at accepted
    obtain ⟨⟨inBody, _⟩, rfl⟩ := accepted
    have none_left := was.symm.trans (inv.settled (by simp [inBody]) (by simp [inBody]))
    refine ⟨inv.claimed, by simp, fun _ _ => ?_, by simp, by simp, inv.ran⟩
    simp [follows, none_left, callbackOps, RequestObserver.onSucceeded]
  | onError netError errorString errorToString =>
    simp only [UrlRequest.accepts, Option.ite_none_right_eq_some, Option.some.injEq] at accepted
    obtain ⟨early, rfl⟩ := accepted
    have none_left : (c.request.posted.drop c.request.ran).count .followDeferredRedirect = 0 :=
      was.symm.trans (inv.settled (by rcases early with h | h <;> simp [h]) (by rcases early with h | h <;> simp [h]))
    refine ⟨inv.claimed, by simp, fun _ _ => ?_, by simp, by simp, inv.ran⟩
    simp [follows, none_left, callbackOps, RequestObserver.onError]
  | onMetricsCollected metrics =>
    simp only [UrlRequest.accepts, Option.ite_none_left_eq_some, Option.some.injEq] at accepted
    obtain ⟨_, rfl⟩ := accepted
    have same : follows { c with net := RequestObserver.onMetricsCollected metrics } = c.follows := by
      simp [follows, idle, RequestObserver.onMetricsCollected]
    have concluding : Concluding { c with net := RequestObserver.onMetricsCollected metrics } → Concluding c := by
      simp [Concluding, idle, RequestObserver.onMetricsCollected]
    exact ⟨inv.claimed, fun opened concludes => inv.opened opened (concluding concludes),
      fun loose alive => same.trans (inv.settled loose alive), fun holding => same ▸ inv.held holding,
      fun holding concludes => same.trans (inv.dropped holding (concluding concludes)), inv.ran⟩

theorem openInv_step {c d : Call} {label : Label} (inv : OpenInv c) (stepped : c.step label = some d) : OpenInv d := by
  have posted : ∀ tasks, tasks.count .followDeferredRedirect = 0 → OpenInv (c.post tasks) := by
    intro tasks plain
    have same : (c.post tasks).follows = c.follows := by rw [follows_post inv.ran, plain, Nat.add_zero]
    refine ⟨inv.claimed, inv.opened, same ▸ inv.settled, same ▸ inv.held, same ▸ inv.dropped, ?_⟩
    have ran := inv.ran
    simp only [post, UrlRequest.post, List.length_append]
    omega
  cases label with
  | rejectUrl | registerCall | construct | attachRequest | read | drain =>
    simp only [Call.step, Option.ite_none_right_eq_some, Option.some.injEq] at stepped
    obtain ⟨_, rfl⟩ := stepped
    exact ⟨inv.claimed, inv.opened, inv.settled, inv.held, inv.dropped, inv.ran⟩
  | start =>
    simp only [Call.step, Option.ite_none_right_eq_some, Option.some.injEq] at stepped
    obtain ⟨_, rfl⟩ := stepped
    have next := posted [.start] rfl
    exact ⟨next.claimed, next.opened, next.settled, next.held, next.dropped, next.ran⟩
  | resume =>
    simp only [Call.step, Option.ite_none_right_eq_some, Option.some.injEq] at stepped
    obtain ⟨_, rfl⟩ := stepped
    have next := posted c.shared.readData (by unfold CallState.readData; split <;> rfl)
    exact ⟨next.claimed, next.opened, next.settled, next.held, next.dropped, next.ran⟩
  | cancel who =>
    simp only [Call.step, Option.ite_none_right_eq_some, Option.some.injEq] at stepped
    obtain ⟨_, rfl⟩ := stepped
    have next := posted (c.shared.destroyRequest true).2 (by unfold CallState.destroyRequest; split <;> rfl)
    exact ⟨by simpa [cancel, destroyRequest] using inv.claimed, next.opened, next.settled, next.held, next.dropped,
      next.ran⟩
  | op =>
    simp only [Call.step, Option.ite_none_left_eq_some, Option.some.injEq] at stepped
    obtain ⟨_, rfl⟩ := stepped
    exact OpenInv.perform inv
  | task metrics =>
    simp only [Call.step, Option.ite_none_right_eq_some, Option.map_eq_some_iff] at stepped
    obtain ⟨idle, ran, done, rfl⟩ := stepped
    exact (inv.task idle done).perform
  | callback cb =>
    simp only [Call.step, Option.ite_none_right_eq_some, Option.map_eq_some_iff] at stepped
    obtain ⟨idle, next, accepted, rfl⟩ := stepped
    exact inv.receive idle accepted

/-- The end of the body and the code of the outcome, as far as `Finish` has got with them. -/
structure OutcomeInv (c : Call) : Prop where
  claimed : c.shared.outcomeClaimed = c.outcome.isSome
  completed : c.shared.body.bodyComplete = true ∨ NetOp.completeBody ∈ c.net → c.outcome.isSome = true
  once : c.shared.body.bodyComplete = true → NetOp.completeBody ∉ c.net
  single : c.net.count .completeBody ≤ 1
  storing : ∀ code, NetOp.storeErrorCode code ∈ c.net → c.outcome = some code
  stored : ∀ code, c.outcome = some code →
    NetOp.storeErrorCode code ∈ c.net ∨ c.shared.response.view.errorCode = code
  unset : c.outcome = none → c.shared.response.view.errorCode = 0
  storeOnce : ∀ code, c.net.count (.storeErrorCode code) ≤ 1
  unstored : ∀ code, NetOp.storeErrorCode code ∈ c.net → c.shared.response.view.errorCode = 0

theorem outcomeInv_initial (url : String) (maxRedirects : Int) : OutcomeInv (initial url maxRedirects) := by
  constructor <;> simp [initial, CallState.initial, Body.initial, ResponseStorage.initial, ResponseView.zero]

theorem OutcomeInv.pass {c d : Call} {op : NetOp} {pushed rest : List NetOp} (inv : OutcomeInv { c with net := op :: rest })
    (net : d.net = pushed ++ rest) (noComplete : op ≠ .completeBody ∧ NetOp.completeBody ∉ pushed)
    (noStore : ∀ code, op ≠ .storeErrorCode code ∧ NetOp.storeErrorCode code ∉ pushed)
    (outcome : d.outcome = c.outcome) (claimed : d.shared.outcomeClaimed = c.shared.outcomeClaimed)
    (complete : d.shared.body.bodyComplete = c.shared.body.bodyComplete)
    (errorCode : d.shared.response.view.errorCode = c.shared.response.view.errorCode) : OutcomeInv d := by
  have completing : NetOp.completeBody ∈ d.net ↔ NetOp.completeBody ∈ op :: rest := by
    simp [net, noComplete.2, noComplete.1.symm]
  have storing : ∀ code, NetOp.storeErrorCode code ∈ d.net ↔ NetOp.storeErrorCode code ∈ op :: rest := fun code => by
    simp [net, (noStore code).2, (noStore code).1.symm]
  refine ⟨?_, ?_, ?_, ?_, ?_, ?_, ?_, ?_, ?_⟩
  · rw [claimed, outcome]
    exact inv.claimed
  · rw [complete, completing, outcome]
    exact inv.completed
  · rw [complete, completing]
    exact inv.once
  · have single : (op :: rest).count .completeBody ≤ 1 := inv.single
    rw [net, List.count_append, List.count_eq_zero.mpr noComplete.2]
    rw [List.count_cons_of_ne noComplete.1] at single
    omega
  · intro code
    rw [storing, outcome]
    exact inv.storing code
  · intro code
    rw [storing, outcome, errorCode]
    exact inv.stored code
  · rw [outcome, errorCode]
    exact inv.unset
  · intro code
    have single : (op :: rest).count (.storeErrorCode code) ≤ 1 := inv.storeOnce code
    rw [net, List.count_append, List.count_eq_zero.mpr (noStore code).2]
    rw [List.count_cons_of_ne (noStore code).1] at single
    omega
  · intro code
    rw [storing, errorCode]
    exact inv.unstored code

theorem OutcomeInv.claim {c : Call} {code : Int} {message : String} {rest : List NetOp}
    (inv : OutcomeInv { c with net := .claimOutcome code message :: rest }) :
    OutcomeInv (c.perform (.claimOutcome code message :: rest)) := by
  by_cases already : c.shared.outcomeClaimed = true
  · refine @OutcomeInv.pass c _ _ [] rest inv ?_ (by simp) (by simp) ?_ ?_ ?_ ?_ <;> simp [Call.perform, exec, already]
  · have fresh : c.outcome = none := by
      have claimed := inv.claimed
      simpa [Bool.eq_false_iff.mpr already] using claimed.symm
    have incomplete : c.shared.body.bodyComplete = false ∧ NetOp.completeBody ∉ rest := by
      constructor
      · by_contra complete
        simpa [fresh] using inv.completed (.inl (by simpa using complete))
      · intro pending
        simpa [fresh] using inv.completed (.inr (List.mem_cons_of_mem _ pending))
    have noStore : ∀ other, NetOp.storeErrorCode other ∉ rest := fun other pending => by
      simpa [fresh] using inv.storing other (List.mem_cons_of_mem _ pending)
    have once : ∀ other, rest.count (.storeErrorCode other) = 0 := fun other => List.count_eq_zero.mpr (noStore other)
    have zero : c.shared.response.view.errorCode = 0 := inv.unset fresh
    constructor <;>
      simp [Call.perform, exec, already, finishStores, incomplete, noStore, List.count_eq_zero.mpr incomplete.2,
        List.count_cons, once, zero]
    exact fun other => by split <;> omega

theorem OutcomeInv.completeBody {c : Call} {rest : List NetOp}
    (inv : OutcomeInv { c with net := .completeBody :: rest }) : OutcomeInv (c.perform (.completeBody :: rest)) := by
  have single : NetOp.completeBody ∉ rest := by
    have single : (NetOp.completeBody :: rest).count .completeBody ≤ 1 := inv.single
    rw [List.count_cons_self] at single
    exact List.count_eq_zero.mp (by omega)
  refine ⟨inv.claimed, fun _ => inv.completed (.inr (by simp)), fun _ => single, ?_, ?_, ?_, inv.unset, ?_, ?_⟩
  · simp [Call.perform, exec, List.count_eq_zero.mpr single]
  · exact fun code pending => inv.storing code (List.mem_cons_of_mem _ pending)
  · intro code outcome
    simpa [Call.perform, exec] using inv.stored code outcome
  · intro code
    simpa [Call.perform, exec, List.count_cons] using inv.storeOnce code
  · exact fun code pending => inv.unstored code (List.mem_cons_of_mem _ pending)

theorem OutcomeInv.storeErrorCode {c : Call} {code : Int} {rest : List NetOp}
    (inv : OutcomeInv { c with net := .storeErrorCode code :: rest }) :
    OutcomeInv (c.perform (.storeErrorCode code :: rest)) := by
  have outcome : c.outcome = some code := inv.storing code (by simp)
  have last : ∀ other, NetOp.storeErrorCode other ∉ rest := by
    intro other pending
    have same := Option.some.inj ((inv.storing other (List.mem_cons_of_mem _ pending)).symm.trans outcome)
    have single : (NetOp.storeErrorCode code :: rest).count (.storeErrorCode code) ≤ 1 := inv.storeOnce code
    rw [List.count_cons_self] at single
    exact List.count_eq_zero.mp (by omega) (same ▸ pending)
  refine ⟨inv.claimed, ?_, ?_, ?_, ?_, ?_, ?_, ?_, ?_⟩
  · simpa [Call.perform, exec] using inv.completed
  · simpa [Call.perform, exec] using inv.once
  · simpa [Call.perform, exec] using inv.single
  · exact fun other pending => inv.storing other (List.mem_cons_of_mem _ pending)
  · intro other same
    exact .inr (Option.some.inj (outcome.symm.trans same))
  · intro fresh
    cases outcome.symm.trans fresh
  · intro other
    simp [Call.perform, exec, List.count_eq_zero.mpr (last other)]
  · intro other pending
    exact absurd pending (last other)

theorem OutcomeInv.perform {c : Call} {ops : List NetOp} (inv : OutcomeInv { c with net := ops }) :
    OutcomeInv (c.perform ops) := by
  cases ops with
  | nil => exact inv
  | cons op rest =>
    by_cases claims : ∃ code message, op = .claimOutcome code message
    · obtain ⟨code, message, rfl⟩ := claims
      exact inv.claim
    by_cases completes : op = .completeBody
    · subst completes
      exact OutcomeInv.completeBody inv
    by_cases stores : ∃ code, op = .storeErrorCode code
    · obtain ⟨code, rfl⟩ := stores
      exact OutcomeInv.storeErrorCode inv
    push Not at claims stores
    have quiet := exec_quiet c claims completes stores
    refine inv.pass rfl ⟨completes, fun pushed => ?_⟩ (fun code => ⟨stores code, fun pushed => ?_⟩) quiet.outcome
      quiet.claimed quiet.complete quiet.errorCode
    · rcases quiet.pushes _ pushed with same | same <;> cases same
    · rcases quiet.pushes _ pushed with same | same <;> cases same

theorem OutcomeInv.enter {c : Call} {request : UrlRequest} {observer : RequestObserver} {ops : List NetOp}
    (inv : OutcomeInv c) (idle : c.net = []) (noComplete : NetOp.completeBody ∉ ops)
    (noStore : ∀ code, NetOp.storeErrorCode code ∉ ops) : OutcomeInv { c with request, observer, net := ops } where
  claimed := inv.claimed
  completed := by
    rintro (complete | pending)
    · exact inv.completed (.inl complete)
    · exact absurd pending noComplete
  once _ := noComplete
  single := by simp [List.count_eq_zero.mpr noComplete]
  storing code pending := absurd pending (noStore code)
  stored code outcome := .inr ((inv.stored code outcome).resolve_left (by simp [idle]))
  unset := inv.unset
  storeOnce code := by simp [List.count_eq_zero.mpr (noStore code)]
  unstored code pending := absurd pending (noStore code)

theorem runTask_no_store {r : UrlRequest} {metrics : Option Metrics} {ran : UrlRequest × List NetOp}
    (done : r.runTask metrics = some ran) (code : Int) : NetOp.storeErrorCode code ∉ ran.2 := by
  by_cases alive : ran.1.phase ≠ .dead
  · simp [(task_spec done).silent alive]
  · unfold UrlRequest.runTask at done
    split at done
    · cases done
    · dsimp only at done
      split at done <;> cases done
      · simp
      · simp
      · simp
      · rename_i flag _
        cases metrics <;> cases flag <;>
          simp [RequestObserver.onMetricsCollected, RequestObserver.onCanceled, RequestObserver.onDestroyed]

theorem outcomeInv_step {c d : Call} {label : Label} (inv : OutcomeInv c) (stepped : c.step label = some d) :
    OutcomeInv d := by
  cases label with
  | rejectUrl | registerCall | construct | attachRequest | start | resume | drain =>
    simp only [Call.step, Option.ite_none_right_eq_some, Option.some.injEq] at stepped
    obtain ⟨_, rfl⟩ := stepped
    exact ⟨inv.claimed, inv.completed, inv.once, inv.single, inv.storing, inv.stored, inv.unset, inv.storeOnce,
      inv.unstored⟩
  | read capacity ret =>
    simp only [Call.step, Option.ite_none_right_eq_some, Option.some.injEq] at stepped
    obtain ⟨⟨_, positive, _⟩, rfl⟩ := stepped
    have complete := (Body.read_spec c.shared.body positive).complete
    exact ⟨inv.claimed, complete.symm ▸ inv.completed, complete.symm ▸ inv.once, inv.single, inv.storing, inv.stored,
      inv.unset, inv.storeOnce, inv.unstored⟩
  | cancel who =>
    simp only [Call.step, Option.ite_none_right_eq_some, Option.some.injEq] at stepped
    obtain ⟨_, rfl⟩ := stepped
    constructor
    · simpa [cancel, destroyRequest] using inv.claimed
    · simpa [cancel, destroyRequest] using inv.completed
    · simpa [cancel, destroyRequest] using inv.once
    · exact inv.single
    · exact inv.storing
    · simpa [cancel, destroyRequest] using inv.stored
    · simpa [cancel, destroyRequest] using inv.unset
    · exact inv.storeOnce
    · simpa [cancel, destroyRequest] using inv.unstored
  | op =>
    simp only [Call.step, Option.ite_none_left_eq_some, Option.some.injEq] at stepped
    obtain ⟨_, rfl⟩ := stepped
    exact OutcomeInv.perform inv
  | task metrics =>
    simp only [Call.step, Option.ite_none_right_eq_some, Option.map_eq_some_iff] at stepped
    obtain ⟨idle, ran, done, rfl⟩ := stepped
    apply OutcomeInv.perform
    exact inv.enter idle (task_spec done).noComplete (runTask_no_store done)
  | callback cb =>
    simp only [Call.step, Option.ite_none_right_eq_some, Option.map_eq_some_iff] at stepped
    obtain ⟨idle, next, _, rfl⟩ := stepped
    apply OutcomeInv.perform
    exact inv.enter idle (not_mem_callbackOps rfl) fun code => not_mem_callbackOps rfl

structure CallInv (c : Call) : Prop where
  teardown : TeardownInv c
  flow : FlowInv c
  opened : OpenInv c
  outcome : OutcomeInv c

theorem callInv_initial (url : String) (maxRedirects : Int) : CallInv (initial url maxRedirects) :=
  ⟨teardownInv_initial url maxRedirects, flowInv_initial url maxRedirects, openInv_initial url maxRedirects,
    outcomeInv_initial url maxRedirects⟩

theorem CallInv.step {c d : Call} {label : Label} (inv : CallInv c) (stepped : c.step label = some d) : CallInv d :=
  ⟨inv.teardown.step stepped, inv.flow.step inv.teardown stepped, openInv_step inv.opened stepped,
    outcomeInv_step inv.outcome stepped⟩

theorem CallInv.run {c d : Call} {labels : List Label} (inv : CallInv c) (ran : machine.run c labels = some d) :
    CallInv d :=
  Machine.invariant CallInv inv (fun _ _ _ inv stepped => inv.step stepped) ran

theorem callInv_of_run {url : String} {maxRedirects : Int} {labels : List Label} {c : Call}
    (ran : machine.run (initial url maxRedirects) labels = some c) : CallInv c :=
  (callInv_initial url maxRedirects).run ran

/-- The sections of `body_lock_` in one step of a call. -/
def sections (c : Call) : Label → List Section
  | .callback (.onReadCompleted chunk) => [.onData chunk]
  | .read capacity ret => [.read capacity ret]
  | .op => if c.net.head? = some .completeBody then [.finish] else []
  | _ => []

theorem perform_body {c : Call} {ops : List NetOp} (noData : ∀ chunk, NetOp.onData chunk ∉ ops)
    (noComplete : ops.head? ≠ some .completeBody) : (c.perform ops).shared.body = c.shared.body := by
  cases ops with
  | nil => rfl
  | cons op rest =>
    exact exec_body (fun chunk same => noData chunk (by simp [same])) fun same => noComplete (by simp [same])

theorem receive_body {c : Call} {cb : Callback} {next : UrlRequest} (noChunk : ∀ chunk, cb ≠ .onReadCompleted chunk) :
    (c.receive cb next).shared.body = c.shared.body := by
  refine perform_body (fun chunk => ?_) fun first => not_mem_callbackOps rfl (List.mem_of_head? first)
  cases cb with
  | onReadCompleted chunk => exact absurd rfl (noChunk chunk)
  | onReceivedRedirect location head =>
    simp only [callbackOps, RequestObserver.onReceivedRedirect]
    split
    · simp only [RequestObserver.responseOps]
      split <;> simp
    · simp
  | _ => simp [callbackOps, RequestObserver.onResponseStarted, RequestObserver.responseOps,
      RequestObserver.onSucceeded, RequestObserver.onError, RequestObserver.onMetricsCollected]

/-- The body of a call is used as the rules for a body ask: no data and no second end after
    the end. -/
def bodyOf : Machine.Simulation machine bodyMachine (fun c b => c.shared.body = b ∧ CallInv c) where
  events := sections
  played := by
    rintro c b label d ⟨rfl, inv⟩ stepped
    have next : CallInv d := inv.step stepped
    have stepped : c.step label = some d := stepped
    cases label with
    | rejectUrl | registerCall | construct | attachRequest | start | resume | drain =>
      simp only [Call.step, Option.ite_none_right_eq_some, Option.some.injEq] at stepped
      obtain ⟨_, rfl⟩ := stepped
      exact ⟨_, rfl, rfl, next⟩
    | cancel who =>
      simp only [Call.step, Option.ite_none_right_eq_some, Option.some.injEq] at stepped
      obtain ⟨_, rfl⟩ := stepped
      exact ⟨_, rfl, by simp [cancel, destroyRequest], next⟩
    | read capacity ret =>
      simp only [Call.step, Option.ite_none_right_eq_some, Option.some.injEq] at stepped
      obtain ⟨⟨_, positive, same⟩, rfl⟩ := stepped
      exact ⟨(c.shared.body.read capacity).2.2, by simp [sections, Machine.run, bodyMachine, positive, same], rfl, next⟩
    | op =>
      simp only [Call.step, Option.ite_none_left_eq_some, Option.some.injEq] at stepped
      obtain ⟨busy, rfl⟩ := stepped
      by_cases ends : c.net.head? = some .completeBody
      · obtain ⟨rest, net⟩ := List.head?_eq_some_iff.mp ends
        have incomplete : c.shared.body.bodyComplete = false := by
          by_contra complete
          exact inv.outcome.once (by simpa using complete) (by simp [net])
        refine ⟨c.shared.body.complete, by simp [sections, ends, Machine.run, bodyMachine, incomplete], ?_, next⟩
        simp [net, perform, exec]
      · exact ⟨_, by simp [sections, ends], perform_body inv.flow.noData ends, next⟩
    | task metrics =>
      simp only [Call.step, Option.ite_none_right_eq_some, Option.map_eq_some_iff] at stepped
      obtain ⟨_, ran, done, rfl⟩ := stepped
      have spec := task_spec done
      exact ⟨_, rfl, perform_body spec.noData fun first => spec.noComplete (List.mem_of_head? first), next⟩
    | callback cb =>
      simp only [Call.step, Option.ite_none_right_eq_some, Option.map_eq_some_iff] at stepped
      obtain ⟨_, request, accepted, rfl⟩ := stepped
      by_cases brings : ∃ chunk, cb = .onReadCompleted chunk
      · obtain ⟨chunk, rfl⟩ := brings
        have inBody : c.request.phase = .body := by
          simp only [UrlRequest.accepts, Option.ite_none_right_eq_some] at accepted
          exact accepted.1.1
        have incomplete : c.shared.body.bodyComplete = false := by
          by_contra complete
          exact inv.opened.opened (.inr (.inr inBody)) (.inl (inv.outcome.completed (.inl (by simpa using complete))))
        exact ⟨(c.shared.body.onData chunk).2, by simp [sections, Machine.run, bodyMachine, incomplete], rfl, next⟩
      · push Not at brings
        refine ⟨_, ?_, receive_body brings, next⟩
        cases cb with
        | onReadCompleted chunk => exact absurd rfl (brings chunk)
        | _ => rfl

end Call

def Label.brings : Label → Bytes
  | .callback (.onReadCompleted chunk) => chunk
  | _ => []

def Label.takes : Label → Bytes
  | .read _ (.copied out) => out
  | _ => []

theorem delivered_append (first second : List Section) :
    delivered (first ++ second) = delivered first ++ delivered second := by
  induction first with
  | nil => rfl
  | cons event first ih => cases event <;> simp [delivered, ih]

theorem handedOut_append (first second : List Section) :
    handedOut (first ++ second) = handedOut first ++ handedOut second := by
  induction first with
  | nil => rfl
  | cons event first ih =>
    cases event with
    | read capacity ret => cases ret <;> simp [handedOut, ih]
    | onData chunk => simp [handedOut, ih]
    | finish => simp [handedOut, ih]

namespace Call

theorem delivered_sections (c : Call) (label : Label) : delivered (c.sections label) = label.brings := by
  unfold sections Label.brings
  split <;> simp [delivered]
  split <;> rfl

theorem handedOut_sections (c : Call) (label : Label) : handedOut (c.sections label) = label.takes := by
  cases label with
  | read capacity ret => cases ret <;> simp [sections, Label.takes, handedOut]
  | op =>
    simp only [sections]
    split <;> rfl
  | callback cb => cases cb <;> rfl
  | _ => rfl

theorem trace_transfers {c d : Call} {labels : List Label} (ran : machine.run c labels = some d) :
    delivered (bodyOf.trace c labels) = labels.flatMap Label.brings ∧
      handedOut (bodyOf.trace c labels) = labels.flatMap Label.takes := by
  induction labels generalizing c with
  | nil => exact ⟨rfl, rfl⟩
  | cons label labels ih =>
    obtain ⟨u, stepped, rest⟩ := Machine.run_cons.mp ran
    simp only [Machine.Simulation.trace, stepped, delivered_append, handedOut_append, ih rest, List.flatMap_cons]
    exact ⟨congrArg (· ++ _) (delivered_sections c label), congrArg (· ++ _) (handedOut_sections c label)⟩

theorem call_conserves {url : String} {maxRedirects : Int} {labels : List Label} {c : Call}
    (ran : machine.run (initial url maxRedirects) labels = some c) :
    labels.flatMap Label.takes ++ c.shared.body.unread = labels.flatMap Label.brings := by
  obtain ⟨b, played, rfl, _⟩ := bodyOf.run_trace ⟨rfl, callInv_initial url maxRedirects⟩ ran
  obtain ⟨brought, taken⟩ := trace_transfers ran
  have conserved := body_conserves played
  rwa [brought, taken] at conserved

theorem bodyMachine_ended {a b : Body} {event : Section} (stepped : bodyMachine.step a event = some b)
    (ended : a.bodyComplete = true ∧ a.unread = []) : b.bodyComplete = true ∧ b.unread = [] := by
  cases event with
  | onData chunk | finish => simp [bodyMachine, ended.1] at stepped
  | read capacity ret =>
    simp only [bodyMachine, Option.ite_none_right_eq_some, Option.some.injEq] at stepped
    obtain ⟨⟨positive, _⟩, rfl⟩ := stepped
    have spec := Body.read_spec a positive
    exact ⟨spec.complete.trans ended.1, by rw [spec.unread, ended.2, List.drop_nil]⟩

theorem CallInv.ended_step {c d : Call} {label : Label} (inv : CallInv c) (stepped : c.step label = some d)
    (ended : c.shared.body.bodyComplete = true ∧ c.shared.body.unread = []) :
    d.shared.body.bodyComplete = true ∧ d.shared.body.unread = [] := by
  obtain ⟨b, played, rfl, _⟩ := bodyOf.played ⟨rfl, inv⟩ stepped
  exact Machine.invariant (fun b => b.bodyComplete = true ∧ b.unread = []) ended
    (fun _ _ _ ended stepped => bodyMachine_ended stepped ended) played

theorem CallInv.ended_run {c d : Call} {labels : List Label} (inv : CallInv c) (ran : machine.run c labels = some d)
    (ended : c.shared.body.bodyComplete = true ∧ c.shared.body.unread = []) :
    d.shared.body.bodyComplete = true ∧ d.shared.body.unread = [] := by
  refine (Machine.invariant (fun c => CallInv c ∧ c.shared.body.bodyComplete = true ∧ c.shared.body.unread = [])
    ⟨inv, ended⟩ ?_ ran).2
  exact fun _ _ _ ⟨inv, ended⟩ stepped => ⟨inv.step stepped, inv.ended_step stepped ended⟩

theorem perform_outcome {c : Call} {ops : List NetOp} {code : Int} (claimed : c.shared.outcomeClaimed = true)
    (outcome : c.outcome = some code) : (c.perform ops).outcome = some code := by
  cases ops with
  | nil => exact outcome
  | cons op rest =>
    cases op with
    | claimOutcome => simpa [perform, exec, claimed] using outcome
    | publishUnpublished =>
      simp only [perform, exec]
      split <;> exact outcome
    | _ => exact outcome

theorem CallInv.outcome_step {c d : Call} {label : Label} {code : Int} (inv : CallInv c)
    (stepped : c.step label = some d) (outcome : c.outcome = some code) : d.outcome = some code := by
  have claimed : c.shared.outcomeClaimed = true := by rw [inv.outcome.claimed, outcome, Option.isSome_some]
  cases label with
  | rejectUrl | registerCall | construct | attachRequest | start | read | resume | drain | cancel =>
    simp only [Call.step, Option.ite_none_right_eq_some, Option.some.injEq] at stepped
    obtain ⟨_, rfl⟩ := stepped
    exact outcome
  | op =>
    simp only [Call.step, Option.ite_none_left_eq_some, Option.some.injEq] at stepped
    obtain ⟨_, rfl⟩ := stepped
    exact perform_outcome claimed outcome
  | task | callback =>
    simp only [Call.step, Option.ite_none_right_eq_some, Option.map_eq_some_iff] at stepped
    obtain ⟨_, _, _, rfl⟩ := stepped
    exact perform_outcome claimed outcome

theorem CallInv.outcome_run {c d : Call} {labels : List Label} {code : Int} (inv : CallInv c)
    (ran : machine.run c labels = some d) (outcome : c.outcome = some code) : d.outcome = some code := by
  refine (Machine.invariant (fun c => CallInv c ∧ c.outcome = some code) ⟨inv, outcome⟩ ?_ ran).2
  exact fun _ _ _ ⟨inv, outcome⟩ stepped => ⟨inv.step stepped, inv.outcome_step stepped outcome⟩

theorem perform_state {c : Call} {ops : List NetOp} (moved : c.shared.state ≠ .started) :
    (c.perform ops).shared.state ≠ .started := by
  cases ops with
  | nil => exact moved
  | cons op rest =>
    cases op with
    | storeHeaders | storeDone => exact nofun
    | destroyRequest flag =>
      simp only [perform, exec, destroyRequest, CallState.destroyRequest]
      split <;> exact moved
    | claimOutcome | publishUnpublished =>
      simp only [perform, exec]
      split <;> exact moved
    | setMetrics metrics =>
      simp only [perform, exec, CallState.setMetrics]
      split <;> exact moved
    | _ => exact moved

theorem state_step {c d : Call} {label : Label} (stepped : c.step label = some d) (moved : c.shared.state ≠ .started) :
    d.shared.state ≠ .started := by
  cases label with
  | rejectUrl | registerCall | construct | attachRequest | start | read | resume | drain =>
    simp only [Call.step, Option.ite_none_right_eq_some, Option.some.injEq] at stepped
    obtain ⟨_, rfl⟩ := stepped
    exact moved
  | cancel who =>
    simp only [Call.step, Option.ite_none_right_eq_some, Option.some.injEq] at stepped
    obtain ⟨_, rfl⟩ := stepped
    exact @perform_state c [.destroyRequest true] moved
  | op =>
    simp only [Call.step, Option.ite_none_left_eq_some, Option.some.injEq] at stepped
    obtain ⟨_, rfl⟩ := stepped
    exact perform_state moved
  | task | callback =>
    simp only [Call.step, Option.ite_none_right_eq_some, Option.map_eq_some_iff] at stepped
    obtain ⟨_, _, _, rfl⟩ := stepped
    exact perform_state moved

theorem state_run {c d : Call} {labels : List Label} (ran : machine.run c labels = some d)
    (moved : c.shared.state ≠ .started) : d.shared.state ≠ .started :=
  Machine.invariant (fun c => c.shared.state ≠ .started) moved (fun _ _ _ moved stepped => state_step stepped moved) ran

end Call

end Cronet.Native
