import Cronet.Native.Outcome

namespace Cronet.Native

namespace Call

def ops (c : Call) : Label → List NetOp
  | .op => c.net
  | .task metrics => ((c.request.runTask metrics).map Prod.snd).getD []
  | .callback cb => (c.callbackOps cb).2
  | _ => []

def performed (c : Call) (label : Label) : List NetOp := (c.ops label).take 1

structure Aside (c : Call) (label : Label) (d : Call) : Prop where
  silent : c.performed label = []
  net : d.net = c.net
  phase : d.request.phase = c.request.phase
  observer : d.observer = c.observer
  outcome : d.outcome = c.outcome
  claimed : d.shared.outcomeClaimed = c.shared.outcomeClaimed
  state : d.shared.state = c.shared.state
  finished : d.shared.finished = c.shared.finished
  released : d.shared.released = c.shared.released
  response : d.shared.response = c.shared.response
  published : d.shared.headersPublished = c.shared.headersPublished
  complete : d.shared.body.bodyComplete = c.shared.body.bodyComplete
  nothing : c.shared.body.unread = [] → d.shared.body.unread = []
  signals : label ≠ .drain → d.shared.completionFd = c.shared.completionFd
  follows : d.follows = c.follows

/-- What a step is: one beside the network thread, or an operation of it, at the start of a callback or within one. -/
inductive StepOf (c : Call) : Label → Call → Prop where
  | aside {label : Label} {d : Call} (aside : Aside c label d) : StepOf c label d
  | op {op : NetOp} {rest : List NetOp} (net : c.net = op :: rest) : StepOf c .op (c.perform (op :: rest))
  | task {metrics : Option Metrics} {ran : UrlRequest × List NetOp} (idle : c.net = [])
      (done : c.request.runTask metrics = some ran) :
      StepOf c (.task metrics) ({ c with request := ran.1 }.perform ran.2)
  | callback {cb : Callback} {next : UrlRequest} (idle : c.net = []) (accepted : c.request.accepts cb = some next) :
      StepOf c (.callback cb) (c.receive cb next)

theorem post_follows (c : Call) {tasks : List Task} (other : .followDeferredRedirect ∉ tasks) :
    (c.post tasks).follows = c.follows := by
  have none : (tasks.drop (c.request.ran - c.request.posted.length)).count .followDeferredRedirect = 0 :=
    List.count_eq_zero.mpr fun member => other (List.mem_of_mem_drop member)
  simp only [follows, post, UrlRequest.post, List.drop_append, List.count_append, none, Nat.add_zero]

theorem step_of {c d : Call} {label : Label} (stepped : c.step label = some d) : StepOf c label d := by
  cases label with
  | rejectUrl | registerCall | construct | attachRequest =>
    simp only [Call.step, Option.ite_none_right_eq_some, Option.some.injEq] at stepped
    obtain ⟨_, rfl⟩ := stepped
    exact .aside ⟨rfl, rfl, rfl, rfl, rfl, rfl, rfl, rfl, rfl, rfl, rfl, rfl, id, fun _ => rfl, rfl⟩
  | start =>
    simp only [Call.step, Option.ite_none_right_eq_some, Option.some.injEq] at stepped
    obtain ⟨_, rfl⟩ := stepped
    refine .aside ⟨rfl, rfl, rfl, rfl, rfl, rfl, rfl, rfl, rfl, rfl, rfl, rfl, id, fun _ => rfl, ?_⟩
    exact c.post_follows (by simp)
  | resume =>
    simp only [Call.step, Option.ite_none_right_eq_some, Option.some.injEq] at stepped
    obtain ⟨_, rfl⟩ := stepped
    refine .aside ⟨rfl, rfl, rfl, rfl, rfl, rfl, rfl, rfl, rfl, rfl, rfl, rfl, id, fun _ => rfl, ?_⟩
    refine c.post_follows ?_
    unfold CallState.readData
    split <;> simp
  | drain =>
    simp only [Call.step, Option.ite_none_right_eq_some, Option.some.injEq] at stepped
    obtain ⟨_, rfl⟩ := stepped
    exact .aside ⟨rfl, rfl, rfl, rfl, rfl, rfl, rfl, rfl, rfl, rfl, rfl, rfl, id, fun other => absurd rfl other, rfl⟩
  | read capacity ret =>
    simp only [Call.step, Option.ite_none_right_eq_some, Option.some.injEq] at stepped
    obtain ⟨⟨_, positive, _⟩, rfl⟩ := stepped
    have spec := Body.read_spec c.shared.body positive
    refine .aside ⟨rfl, rfl, rfl, rfl, rfl, rfl, rfl, rfl, rfl, rfl, rfl, spec.complete, fun nothing => ?_, fun _ => rfl, rfl⟩
    rw [show (c.read capacity).shared.body = (c.shared.body.read capacity).2.2 from rfl, spec.unread, nothing, List.drop_nil]
  | cancel who =>
    simp only [Call.step, Option.ite_none_right_eq_some, Option.some.injEq] at stepped
    obtain ⟨_, rfl⟩ := stepped
    refine .aside ?_
    have follows : c.cancel.follows = c.follows := by
      refine c.post_follows ?_
      unfold CallState.destroyRequest
      split <;> simp
    revert follows
    unfold cancel destroyRequest CallState.destroyRequest
    split <;> exact fun follows => ⟨rfl, rfl, rfl, rfl, rfl, rfl, rfl, rfl, rfl, rfl, rfl, rfl, id, fun _ => rfl, follows⟩
  | op =>
    simp only [Call.step, Option.ite_none_left_eq_some, Option.some.injEq] at stepped
    obtain ⟨busy, rfl⟩ := stepped
    obtain ⟨op, rest, net⟩ := List.exists_cons_of_ne_nil busy
    rw [net]
    exact .op net
  | task metrics =>
    simp only [Call.step, Option.ite_none_right_eq_some, Option.map_eq_some_iff] at stepped
    obtain ⟨idle, ran, done, rfl⟩ := stepped
    exact .task idle done
  | callback cb =>
    simp only [Call.step, Option.ite_none_right_eq_some, Option.map_eq_some_iff] at stepped
    obtain ⟨idle, next, accepted, rfl⟩ := stepped
    exact .callback idle accepted

end Call

/-- Reaching `Finish` with an outcome. -/
def NetOp.claim : NetOp → Option (Int × String)
  | claimOutcome code message => some (code, message)
  | _ => none

def NetOp.messageStored : NetOp → Option String
  | storeErrorMessage message => some message
  | _ => none

def NetOp.codeStored : NetOp → Option Int
  | storeErrorCode code => some code
  | _ => none

def NetOp.teardown : NetOp → Bool
  | claimOutcome _ _ | destroyRequest _ | unregisterCall | clearRequest | signalReleased | setMetrics _ => true
  | _ => false

def NetOp.opens : NetOp → Bool
  | onRedirect _ | followRedirect | onResponse _ | storeHeaders | signalProgress | setRedirectCount _ | readData | onData _
  | destroyRequest _ | setMetrics _ => true
  | _ => false

/-- The operations of an open call up to its outcome, and only its teardown behind that. -/
def closes : List NetOp → Bool
  | [] => true
  | .claimOutcome _ _ :: rest => rest.all NetOp.teardown
  | op :: rest => op.opens && closes rest

theorem not_publishing_of_closes {ops : List NetOp} (onward : closes ops = true) : NetOp.publishUnpublished ∉ ops := by
  induction ops with
  | nil => simp
  | cons op rest ih =>
    cases op with
    | claimOutcome code message =>
      intro member
      rcases List.mem_cons.mp member with same | later
      · cases same
      · cases List.all_eq_true.mp onward _ later
    | _ => simp_all [closes, NetOp.opens]

/-- What the first `k` stores of `Finish` have left. -/
structure Stored (s : CallState) (code : Int) (message : String) (k : Nat) : Prop where
  body : 0 < k → s.body.bodyComplete = true
  published : 1 < k → s.headersPublished = true
  message : 2 < k → s.response.view.errorMessage = some message
  code : 3 < k → s.response.view.errorCode = code
  done : 4 < k ↔ s.state = .done
  finished : 5 < k ↔ s.finished = true
  released : s.released = true → 6 < k

/-- What the operations performed so far say of an outcome whose first `k` stores are among them. -/
structure Recorded (past : List NetOp) (code : Int) (message : String) (k : Nat) : Prop where
  first : (past.filterMap NetOp.claim).head? = some (code, message)
  messages : past.filterMap NetOp.messageStored = if 2 < k then [message] else []
  codes : past.filterMap NetOp.codeStored = if 3 < k then [code] else []

theorem Recorded.store {past : List NetOp} {code : Int} {message : String} {k : Nat} (within : k < 7)
    (recorded : Recorded past code message k) :
    Recorded (past ++ ((finishStores code message).drop k).take 1) code message (k + 1) := by
  have cases : k = 0 ∨ k = 1 ∨ k = 2 ∨ k = 3 ∨ k = 4 ∨ k = 5 ∨ k = 6 := by omega
  obtain ⟨first, messages, codes⟩ := recorded
  rcases cases with rfl | rfl | rfl | rfl | rfl | rfl | rfl <;>
    constructor <;>
      simp_all [finishStores, NetOp.claim, NetOp.messageStored, NetOp.codeStored]

theorem Recorded.later {past : List NetOp} {code : Int} {message : String} {k : Nat} {op : NetOp}
    (recorded : Recorded past code message k) (message' : op.messageStored = none) (code' : op.codeStored = none) :
    Recorded (past ++ [op]) code message k := by
  obtain ⟨first, messages, codes⟩ := recorded
  constructor
  · rw [List.filterMap_append, List.head?_append, first]
    rfl
  · simpa [message'] using messages
  · simpa [code'] using codes

theorem Recorded.beyond {past : List NetOp} {code : Int} {message : String} {k l : Nat} (far : 3 < k) (further : 3 < l)
    (recorded : Recorded past code message k) : Recorded past code message l := by
  obtain ⟨first, messages, codes⟩ := recorded
  refine ⟨first, ?_, ?_⟩
  · rw [messages, if_pos (by omega), if_pos (by omega)]
  · rw [codes, if_pos far, if_pos further]

/-- How far a call has got with its outcome, `past` being the operations performed so far. -/
inductive Progress (past : List NetOp) (s : CallState) (outcome : Option Int) (net : List NetOp) : Prop where
  | running (unclaimed : s.outcomeClaimed = false) (unrecorded : outcome = none) (state : s.state ≠ .done)
      (unfinished : s.finished = false) (unreleased : s.released = false) (incomplete : s.body.bodyComplete = false)
      (silent : s.response.view.errorMessage = none)
      (fresh : ∀ op ∈ past, op.claim = none ∧ op.messageStored = none ∧ op.codeStored = none) (onward : closes net = true)
  | finishing {code : Int} {message : String} {k : Nat} {rest : List NetOp} (claimed : s.outcomeClaimed = true)
      (recorded : outcome = some code) (left : net = (finishStores code message).drop k ++ rest)
      (teardown : rest.all NetOp.teardown = true) (stored : Stored s code message k)
      (history : Recorded past code message k)

theorem Progress.enter {past : List NetOp} {s : CallState} {outcome : Option Int} {ops : List NetOp} (progress : Progress past s outcome [])
    (onward : closes ops = true) (teardown : outcome.isSome = true → ops.all NetOp.teardown = true) :
    Progress past s outcome ops := by
  cases progress with
  | running unclaimed unrecorded state unfinished unreleased incomplete silent fresh =>
    exact .running unclaimed unrecorded state unfinished unreleased incomplete silent fresh onward
  | @finishing code message k rest claimed recorded left _ stored history =>
    have all : (finishStores code message).drop k = [] := (List.append_eq_nil_iff.mp left.symm).1
    exact .finishing claimed recorded (by rw [all]; rfl) (teardown (by rw [recorded]; rfl)) stored history

theorem Progress.recorded_of_publishing {past : List NetOp} {s : CallState} {outcome : Option Int} {net : List NetOp}
    (progress : Progress past s outcome net) (publishing : NetOp.publishUnpublished ∈ net) : outcome.isSome = true := by
  cases progress with
  | finishing _ recorded => rw [recorded, Option.isSome_some]
  | running _ _ _ _ _ _ _ _ onward =>
    exact absurd publishing (not_publishing_of_closes onward)

namespace Call

def InProgress (past : List NetOp) (c : Call) : Prop := Progress past c.shared c.outcome c.net

theorem inProgress_initial (url : String) (maxRedirects : Int) : InProgress [] (initial url maxRedirects) :=
  .running rfl rfl (by simp [initial, CallState.initial]) rfl rfl rfl rfl (by simp) rfl

theorem store_progress {past : List NetOp} {c : Call} {code : Int} {message : String} {k : Nat} {rest : List NetOp} (within : k < 7)
    (claimed : c.shared.outcomeClaimed = true) (recorded : c.outcome = some code)
    (teardown : rest.all NetOp.teardown = true) (stored : Stored c.shared code message k)
    (history : Recorded past code message k) :
    InProgress (past ++ ((finishStores code message).drop k).take 1) (c.perform ((finishStores code message).drop k ++ rest)) := by
  have next := history.store within
  have cases : k = 0 ∨ k = 1 ∨ k = 2 ∨ k = 3 ∨ k = 4 ∨ k = 5 ∨ k = 6 := by omega
  obtain ⟨body, published, text, error, done, finished, released⟩ := stored
  rcases cases with rfl | rfl | rfl | rfl | rfl | rfl | rfl
  · exact @Progress.finishing _ _ _ _ code message 1 rest claimed recorded rfl teardown
      ⟨fun _ => rfl, by simp, by simp, by simp, iff_of_false (by decide) (mt done.mpr (by decide)),
        iff_of_false (by decide) (mt finished.mpr (by decide)), fun out => absurd (released out) (by decide)⟩ next
  · have pending := mt done.mpr (show ¬4 < 1 by decide)
    have silent := mt finished.mpr (show ¬5 < 1 by decide)
    have kept : ¬c.shared.released = true := mt released (by decide)
    by_cases already : c.shared.headersPublished = true
    · refine @Progress.finishing _ _ _ _ code message 2 rest ?_ ?_ rfl teardown ?_ next
      all_goals simp only [perform, finishStores, List.drop, List.cons_append, exec, already]
      · exact claimed
      · exact recorded
      · exact ⟨fun _ => body (by decide), fun _ => already, by simp, by simp, iff_of_false (by decide) pending,
          iff_of_false (by decide) silent, fun out => absurd out kept⟩
    · refine @Progress.finishing _ _ _ _ code message 2 rest ?_ ?_ rfl teardown ?_ next
      all_goals simp only [perform, finishStores, List.drop, List.cons_append, exec, already]
      · exact claimed
      · exact recorded
      · exact ⟨fun _ => body (by decide), fun _ => rfl, by simp, by simp, iff_of_false (by decide) pending,
          iff_of_false (by decide) silent, fun out => absurd out kept⟩
  · exact @Progress.finishing _ _ _ _ code message 3 rest claimed recorded rfl teardown
      ⟨fun _ => body (by decide), fun _ => published (by decide), fun _ => rfl, by simp,
        iff_of_false (by decide) (mt done.mpr (by decide)), iff_of_false (by decide) (mt finished.mpr (by decide)),
        fun out => absurd (released out) (by decide)⟩ next
  · exact @Progress.finishing _ _ _ _ code message 4 rest claimed recorded rfl teardown
      ⟨fun _ => body (by decide), fun _ => published (by decide), fun _ => text (by decide), fun _ => rfl,
        iff_of_false (by decide) (mt done.mpr (by decide)), iff_of_false (by decide) (mt finished.mpr (by decide)),
        fun out => absurd (released out) (by decide)⟩ next
  · exact @Progress.finishing _ _ _ _ code message 5 rest claimed recorded rfl teardown
      ⟨fun _ => body (by decide), fun _ => published (by decide), fun _ => text (by decide), fun _ => error (by decide),
        iff_of_true (by decide) rfl, iff_of_false (by decide) (mt finished.mpr (by decide)),
        fun out => absurd (released out) (by decide)⟩ next
  · exact @Progress.finishing _ _ _ _ code message 6 rest claimed recorded rfl teardown
      ⟨fun _ => body (by decide), fun _ => published (by decide), fun _ => text (by decide), fun _ => error (by decide),
        iff_of_true (by decide) (done.mp (by decide)), iff_of_true (by decide) rfl,
        fun out => absurd (released out) (by decide)⟩ next
  · exact @Progress.finishing _ _ _ _ code message 7 rest claimed recorded rfl teardown
      ⟨fun _ => body (by decide), fun _ => published (by decide), fun _ => text (by decide), fun _ => error (by decide),
        iff_of_true (by decide) (done.mp (by decide)), iff_of_true (by decide) (finished.mp (by decide)),
        fun _ => by decide⟩ next

theorem teardown_progress {past : List NetOp} {c : Call} {code : Int} {message : String} {op : NetOp} {rest : List NetOp}
    (claimed : c.shared.outcomeClaimed = true) (recorded : c.outcome = some code)
    (teardown : (op :: rest).all NetOp.teardown = true) (stored : Stored c.shared code message 7)
    (history : Recorded past code message 7) : InProgress (past ++ [op]) (c.perform (op :: rest)) := by
  have done := stored.done.mp (by decide)
  have ⟨isTeardown, others⟩ : op.teardown = true ∧ rest.all NetOp.teardown = true := by simpa using teardown
  have kept {d : Call} (net : d.net = rest) (sameOutcome : d.outcome = c.outcome)
      (same : d.shared.outcomeClaimed = c.shared.outcomeClaimed ∧ d.shared.body = c.shared.body ∧
        d.shared.headersPublished = c.shared.headersPublished ∧ d.shared.response = c.shared.response ∧
        d.shared.state = c.shared.state ∧ d.shared.finished = c.shared.finished) : InProgress (past ++ [op]) d := by
    obtain ⟨sameClaim, sameBody, samePublished, sameResponse, sameState, sameEvent⟩ := same
    have next : Recorded (past ++ [op]) code message 7 := by
      apply history.later
      · cases op with
        | storeErrorMessage => cases isTeardown
        | _ => rfl
      · cases op with
        | storeErrorCode => cases isTeardown
        | _ => rfl
    refine @Progress.finishing _ _ _ _ code message 7 rest (sameClaim.trans claimed) (sameOutcome.trans recorded) net others ?_ next
    exact ⟨by rw [sameBody]; exact stored.body, by rw [samePublished]; exact stored.published,
      by rw [sameResponse]; exact stored.message, by rw [sameResponse]; exact stored.code,
      by rw [sameState]; exact stored.done, by rw [sameEvent]; exact stored.finished, fun _ => by decide⟩
  cases op with
  | claimOutcome code message => exact kept (by simp [perform, exec, claimed]) (by simp [perform, exec, claimed]) (by simp [perform, exec, claimed])
  | destroyRequest flag =>
    refine kept rfl rfl ?_
    simp only [perform, exec, destroyRequest, CallState.destroyRequest]
    split <;> exact ⟨rfl, rfl, rfl, rfl, rfl, rfl⟩
  | unregisterCall => exact kept rfl rfl ⟨rfl, rfl, rfl, rfl, rfl, rfl⟩
  | clearRequest => exact kept rfl rfl ⟨rfl, rfl, rfl, rfl, rfl, rfl⟩
  | signalReleased => exact kept rfl rfl ⟨rfl, rfl, rfl, rfl, rfl, rfl⟩
  | setMetrics metrics =>
    refine kept rfl rfl ?_
    simp [perform, exec, CallState.setMetrics, done]
  | _ => cases isTeardown

theorem open_progress {past : List NetOp} {c : Call} {op : NetOp} {rest : List NetOp} (opens : op.opens = true)
    (progress : Progress past c.shared c.outcome (op :: rest)) (unclaimed : c.shared.outcomeClaimed = false) :
    InProgress (past ++ [op]) (c.perform (op :: rest)) := by
  cases progress with
  | finishing claimed recorded left teardown stored => simp [unclaimed] at claimed
  | running _ unrecorded state unfinished unreleased incomplete silent fresh onward =>
    have next : ∀ now ∈ past ++ [op], now.claim = none ∧ now.messageStored = none ∧ now.codeStored = none := by
      intro now member
      rcases List.mem_append.mp member with before | last
      · exact fresh now before
      · cases List.mem_singleton.mp last
        cases op with
        | claimOutcome | storeErrorMessage | storeErrorCode => cases opens
        | _ => exact ⟨rfl, rfl, rfl⟩
    have later : closes rest = true := by
      cases op with
      | onRedirect | followRedirect | onResponse | storeHeaders | signalProgress | setRedirectCount | readData | onData
      | destroyRequest | setMetrics => simpa [closes, NetOp.opens] using onward
      | _ => cases opens
    cases op with
    | onData chunk =>
      refine .running unclaimed unrecorded state unfinished unreleased incomplete silent next ?_
      simp only [perform, exec]
      split <;> exact later
    | destroyRequest flag =>
      simp only [InProgress, perform, exec, destroyRequest, CallState.destroyRequest]
      split <;> exact .running unclaimed unrecorded state unfinished unreleased incomplete silent next later
    | setMetrics metrics =>
      simp only [InProgress, perform, exec, CallState.setMetrics]
      split <;> exact .running unclaimed unrecorded state unfinished unreleased incomplete silent next later
    | storeHeaders =>
      exact .running unclaimed unrecorded (by simp [perform, exec]) unfinished unreleased incomplete silent next later
    | onRedirect | followRedirect | onResponse | signalProgress | setRedirectCount | readData =>
      exact .running unclaimed unrecorded state unfinished unreleased incomplete silent next later
    | _ => cases opens

theorem perform_progress {past : List NetOp} {c : Call} {ops : List NetOp}
    (progress : Progress past c.shared c.outcome ops) : InProgress (past ++ ops.take 1) (c.perform ops) := by
  cases ops with
  | nil =>
    rw [List.take_nil, List.append_nil]
    exact progress
  | cons op rest =>
    cases claimed : c.shared.outcomeClaimed with
    | true =>
      cases progress with
      | running unclaimed => simp [unclaimed] at claimed
      | @finishing code message k others _ recorded left teardown stored history =>
        by_cases within : k < 7
        · have taken : (op :: rest).take 1 = ((finishStores code message).drop k).take 1 := by
            rw [left, List.take_append_of_le_length (by simp [finishStores]; omega)]
          rw [taken, left]
          exact store_progress within claimed recorded teardown stored history
        · have all : (finishStores code message).drop k = [] := List.drop_eq_nil_of_le (by simp [finishStores]; omega)
          rw [all, List.nil_append] at left
          rw [← left] at teardown
          obtain ⟨body, published, text, error, done, finished, released⟩ := stored
          exact teardown_progress claimed recorded teardown
            ⟨fun _ => body (by omega), fun _ => published (by omega), fun _ => text (by omega), fun _ => error (by omega),
              iff_of_true (by decide) (done.mp (by omega)), iff_of_true (by decide) (finished.mp (by omega)),
              fun _ => by decide⟩ (history.beyond (by omega) (by decide))
    | false =>
      by_cases opens : op.opens = true
      · exact open_progress opens progress claimed
      · cases progress with
        | finishing claim => simp [claim] at claimed
        | running _ unrecorded state unfinished unreleased incomplete silent fresh onward =>
          cases op with
          | claimOutcome code message =>
            have none {α : Type} {kind : NetOp → Option α} (outside : ∀ now ∈ past, kind now = none) :
                past.filterMap kind = [] := List.filterMap_eq_nil_iff.mpr outside
            have history : Recorded (past ++ [.claimOutcome code message]) code message 0 := by
              constructor
              · rw [List.filterMap_append, none fun now member => (fresh now member).1]
                rfl
              · rw [List.filterMap_append, none fun now member => (fresh now member).2.1]
                rfl
              · rw [List.filterMap_append, none fun now member => (fresh now member).2.2]
                rfl
            simp only [InProgress, perform, exec, claimed, Bool.false_eq_true, ↓reduceIte]
            exact @Progress.finishing _ _ _ _ code message 0 rest rfl rfl rfl onward
              ⟨by simp, by simp, by simp, by simp, iff_of_false (by decide) state,
                iff_of_false (by decide) (by simp [unfinished]), by simp [unreleased]⟩ history
          | _ => simp_all [closes, NetOp.opens]

theorem callbackOps_closes (c : Call) (cb : Callback) : closes (c.callbackOps cb).2 = true := by
  cases cb with
  | onReceivedRedirect location head =>
    simp only [callbackOps, RequestObserver.onReceivedRedirect]
    split
    · split <;> rfl
    · rfl
  | _ => rfl

theorem runTask_closes {r : UrlRequest} {metrics : Option Metrics} {ran : UrlRequest × List NetOp}
    (done : r.runTask metrics = some ran) : closes ran.2 = true ∧ ran.2.all NetOp.teardown = true := by
  unfold UrlRequest.runTask at done
  split at done
  · cases done
  · dsimp only at done
    split at done <;> cases done
    · exact ⟨rfl, rfl⟩
    · exact ⟨rfl, rfl⟩
    · exact ⟨rfl, rfl⟩
    · rename_i flag _
      cases metrics <;> cases flag <;> exact ⟨rfl, rfl⟩

theorem InProgress.task {past : List NetOp} {c : Call} {metrics : Option Metrics} {ran : UrlRequest × List NetOp}
    (progress : c.InProgress past) (idle : c.net = []) (done : c.request.runTask metrics = some ran) :
    Progress past c.shared c.outcome ran.2 := by
  unfold InProgress at progress
  rw [idle] at progress
  obtain ⟨onward, teardown⟩ := runTask_closes done
  exact progress.enter onward fun _ => teardown

theorem InProgress.callback {past : List NetOp} {c : Call} {cb : Callback} {next : UrlRequest}
    (progress : c.InProgress past) (inv : OpenInv c) (idle : c.net = []) (accepted : c.request.accepts cb = some next) :
    Progress past c.shared c.outcome (c.callbackOps cb).2 := by
  unfold InProgress at progress
  rw [idle] at progress
  refine progress.enter (callbackOps_closes c cb) fun recorded => ?_
  have opened (early : c.request.phase = .idle ∨ c.request.phase = .running ∨ c.request.phase = .body) : False :=
    inv.opened early (.inl recorded)
  cases cb with
  | onMetricsCollected metrics => rfl
  | onReceivedRedirect | onResponseStarted =>
    simp only [UrlRequest.accepts, Option.ite_none_right_eq_some] at accepted
    exact (opened (.inr (.inl accepted.1))).elim
  | onReadCompleted | onSucceeded =>
    simp only [UrlRequest.accepts, Option.ite_none_right_eq_some] at accepted
    exact (opened (.inr (.inr accepted.1.1))).elim
  | onError =>
    simp only [UrlRequest.accepts, Option.ite_none_right_eq_some] at accepted
    exact (opened (.inr accepted.1)).elim

theorem inProgress_step {past : List NetOp} {c d : Call} {label : Label} (inv : CallInv c) (progress : c.InProgress past)
    (stepped : c.step label = some d) : d.InProgress (past ++ c.performed label) := by
  cases step_of stepped with
  | aside aside =>
    obtain ⟨quiet, net, _, _, outcome, claimed, state, finished, released, response, published, complete, _, _⟩ := aside
    unfold InProgress at progress ⊢
    rw [quiet, List.append_nil, net, outcome]
    cases progress with
    | running unclaimed unrecorded running unfinished unreleased incomplete silent fresh onward =>
      exact .running (claimed.trans unclaimed) unrecorded (state ▸ running) (finished.trans unfinished)
        (released.trans unreleased) (complete.trans incomplete) (response ▸ silent) fresh onward
    | finishing was recorded left teardown stored history =>
      refine .finishing (claimed.trans was) recorded left teardown ?_ history
      exact ⟨complete ▸ stored.body, published ▸ stored.published, response ▸ stored.message, response ▸ stored.code,
        state ▸ stored.done, finished ▸ stored.finished, released ▸ stored.released⟩
  | op net =>
    unfold InProgress at progress
    rw [net] at progress
    rw [performed, ops, net]
    exact perform_progress progress
  | task idle done =>
    rw [performed, ops, done]
    exact perform_progress (progress.task idle done)
  | callback idle accepted => exact perform_progress (progress.callback inv.opened idle accepted)

theorem inProgress_of_run {url : String} {maxRedirects : Int} {labels : List Label} {c : Call}
    (ran : machine.run (initial url maxRedirects) labels = some c) :
    CallInv c ∧ c.InProgress (machine.outputs performed (initial url maxRedirects) labels) :=
  Machine.output_invariant (fun past c => CallInv c ∧ c.InProgress past)
    ⟨callInv_initial url maxRedirects, inProgress_initial url maxRedirects⟩
    (fun _ _ _ _ held stepped => ⟨held.1.step stepped, inProgress_step held.1 held.2 stepped⟩) ran

end Call

end Cronet.Native
