import Cronet.Lib.Ranking
import Cronet.Native.Finishing
import Cronet.Native.Engine
import Mathlib.Algebra.GroupWithZero.Nat

namespace Cronet.Native

/-- The steps of the network thread that get a call on: the metrics may be reported any number of times. -/
def Label.works : Label → Bool
  | .op | .task _ => true
  | .callback (.onMetricsCollected _) => false
  | .callback _ => true
  | _ => false

def NetOp.weight : NetOp → Nat
  | .claimOutcome _ _ => 8
  | .onData _ => 3
  | _ => 1

def weight (ops : List NetOp) : Nat := (ops.map NetOp.weight).sum

/-- How many more callbacks than reads a request may still make before its next task. -/
def Phase.room : Phase → Nat
  | .running => 2
  | .body => 1
  | _ => 0

def UrlRequest.rank (r : UrlRequest) : Nat := 50 * (r.posted.length - r.ran) + 20 * (r.phase.room + r.reading)

@[simp] theorem weight_nil : weight [] = 0 := rfl

@[simp] theorem weight_cons (op : NetOp) (ops : List NetOp) : weight (op :: ops) = op.weight + weight ops := rfl

@[simp] theorem weight_append (first second : List NetOp) : weight (first ++ second) = weight first + weight second := by
  simp [weight]

theorem callback_rank {r next : UrlRequest} {cb : Callback} (accepted : r.accepts cb = some next)
    (working : (Label.callback cb).works = true) : next.rank + 20 ≤ r.rank := by
  cases cb with
  | onMetricsCollected metrics => cases working
  | onError netError errorString errorToString =>
    simp only [UrlRequest.accepts] at accepted
    split at accepted
    · rename_i phase
      cases accepted
      -- an error ends the request while it waits for the headers or reads the body
      rcases phase with phase | phase <;> simp only [UrlRequest.rank, phase, Phase.room] <;> omega
    · cases accepted
  | _ =>
    simp only [UrlRequest.accepts] at accepted
    split at accepted
    · rename_i phase
      cases accepted
      simp_all only [UrlRequest.rank, Phase.room]
      omega
    · cases accepted

theorem metrics_rank {r next : UrlRequest} {metrics : Metrics}
    (accepted : r.accepts (.onMetricsCollected metrics) = some next) :
    next = r := by
  simp only [UrlRequest.accepts] at accepted
  split at accepted
  · cases accepted
  · exact (Option.some.inj accepted).symm

theorem task_rank {r : UrlRequest} {metrics : Option Metrics} {ran : UrlRequest × List NetOp}
    (done : r.runTask metrics = some ran) : ran.1.rank + weight ran.2 < r.rank := by
  unfold UrlRequest.runTask at done
  split at done
  · cases done
  · dsimp only at done
    split at done
    · cases done
    all_goals
      rename_i next
      have due := (List.getElem?_eq_some_iff.mp next).1
      cases done
    · split
      · simp_all only [UrlRequest.rank, Phase.room, weight_nil]
        omega
      · simp only [UrlRequest.rank, weight_nil]
        omega
    · simp only [UrlRequest.rank, weight_nil]
      omega
    · split
      · simp_all only [UrlRequest.rank, Phase.room, weight_nil]
        omega
      · simp only [UrlRequest.rank, weight_nil]
        omega
    · rename_i flag
      have small : weight ((metrics.map RequestObserver.onMetricsCollected).getD [] ++
          (if flag then RequestObserver.onCanceled else []) ++ RequestObserver.onDestroyed) ≤ 20 := by
        cases metrics <;> cases flag <;> simp [RequestObserver.onMetricsCollected, RequestObserver.onCanceled,
          RequestObserver.onDestroyed, NetOp.weight]
      simp only [UrlRequest.rank, Phase.room]
      omega

namespace Call

variable {c d : Call} {label : Label}

structure Leaving (c : Call) : Prop where
  returned : c.starter = .returned
  requested : c.shared.destroyRequested = true

def rank (c : Call) : Nat := c.request.rank + weight c.net

theorem callback_weight (c : Call) (cb : Callback) : weight (c.callbackOps cb).2 < 20 := by
  cases cb with
  | onReceivedRedirect newLocation head =>
    simp only [callbackOps, RequestObserver.onReceivedRedirect, RequestObserver.responseOps]
    split
    · split <;> simp [NetOp.weight]
    · simp [NetOp.weight]
  | _ => simp [callbackOps, RequestObserver.onResponseStarted, RequestObserver.responseOps,
      RequestObserver.onReadCompleted, RequestObserver.onSucceeded, RequestObserver.onError,
      RequestObserver.onMetricsCollected, NetOp.weight]

theorem exec_weight (c : Call) (op : NetOp) : weight (c.exec op).2 < op.weight := by
  cases op <;> simp only [exec] <;> (try split) <;> simp [NetOp.weight, finishStores]

theorem posts_nothing {s : CallState} (requested : s.destroyRequested = true) :
    s.readData = [] ∧ s.followRedirect = [] ∧ ∀ flag, s.destroyRequest flag = (s, []) := by
  have closed : s.mayPost = false := by simp [CallState.mayPost, requested]
  simp [CallState.readData, CallState.followRedirect, CallState.destroyRequest, closed]

theorem post_nil (c : Call) : c.post [] = c := by simp [post, UrlRequest.post]

theorem destroyRequest_request (requested : c.shared.destroyRequested = true) (flag : Bool) :
    (c.destroyRequest flag).request = c.request := by
  simp [destroyRequest, (posts_nothing requested).2.2 flag, UrlRequest.post]

theorem exec_request (requested : c.shared.destroyRequested = true) (op : NetOp) : (c.exec op).1.request = c.request := by
  cases op with
  | followRedirect => simp only [exec, (posts_nothing requested).2.1, post_nil]
  | readData => simp only [exec, (posts_nothing requested).1, post_nil]
  | destroyRequest flag => exact destroyRequest_request requested flag
  | claimOutcome code message =>
    simp only [exec]
    split <;> rfl
  | publishUnpublished =>
    simp only [exec]
    split <;> rfl
  | _ => rfl

theorem perform_rank (requested : c.shared.destroyRequested = true) {op : NetOp} {ops : List NetOp} :
    (c.perform (op :: ops)).rank < c.request.rank + weight (op :: ops) := by
  have lighter := exec_weight c op
  simp only [rank, perform, exec_request requested, weight_append, weight_cons]
  omega

theorem perform_rank_le (requested : c.shared.destroyRequested = true) (ops : List NetOp) :
    (c.perform ops).rank ≤ c.request.rank + weight ops := by
  cases ops with
  | nil => exact Nat.le_refl _
  | cons op ops => exact Nat.le_of_lt (perform_rank requested)

theorem perform_requested (requested : c.shared.destroyRequested = true) (ops : List NetOp) :
    (c.perform ops).shared.destroyRequested = true := by
  cases ops with
  | nil => exact requested
  | cons op ops => exact exec_keeps_destroyRequested op requested

theorem Leaving.perform (leaving : c.Leaving) (ops : List NetOp) : (c.perform ops).Leaving :=
  ⟨(perform_starter c ops).trans leaving.returned, perform_requested leaving.requested ops⟩

theorem Leaving.step (leaving : c.Leaving) (stepped : c.step label = some d) :
    d.Leaving ∧ d.rank ≤ c.rank ∧ (label.works = true → d.rank < c.rank) := by
  have requested := leaving.requested
  cases label with
  | rejectUrl | registerCall | construct | attachRequest | start =>
    simp only [Call.step, leaving.returned] at stepped
    simp at stepped
  | cancel who =>
    simp only [Call.step, Option.ite_none_right_eq_some, Option.some.injEq] at stepped
    obtain ⟨_, rfl⟩ := stepped
    have same : c.cancel.rank = c.rank := congrArg (UrlRequest.rank · + weight c.net) (destroyRequest_request requested true)
    exact ⟨⟨leaving.returned, destroyRequest_keeps true requested⟩, same.le, fun works => absurd works Bool.false_ne_true⟩
  | read capacity ret =>
    simp only [Call.step, Option.ite_none_right_eq_some, Option.some.injEq] at stepped
    obtain ⟨_, rfl⟩ := stepped
    exact ⟨⟨leaving.returned, requested⟩, Nat.le_refl _, fun works => absurd works Bool.false_ne_true⟩
  | resume =>
    simp only [Call.step, Option.ite_none_right_eq_some, Option.some.injEq, (posts_nothing requested).1, post_nil] at stepped
    obtain ⟨_, rfl⟩ := stepped
    exact ⟨⟨leaving.returned, requested⟩, Nat.le_refl _, fun works => absurd works Bool.false_ne_true⟩
  | drain =>
    simp only [Call.step, Option.ite_none_right_eq_some, Option.some.injEq] at stepped
    obtain ⟨_, rfl⟩ := stepped
    exact ⟨⟨leaving.returned, requested⟩, Nat.le_refl _, fun works => absurd works Bool.false_ne_true⟩
  | op =>
    simp only [Call.step, Option.ite_none_left_eq_some, Option.some.injEq] at stepped
    obtain ⟨busy, rfl⟩ := stepped
    obtain ⟨op, ops, net⟩ := List.exists_cons_of_ne_nil busy
    have fell : (c.perform c.net).rank < c.rank := by
      unfold rank
      rw [net]
      exact perform_rank requested
    exact ⟨leaving.perform c.net, fell.le, fun _ => fell⟩
  | task metrics =>
    simp only [Call.step, Option.ite_none_right_eq_some, Option.map_eq_some_iff] at stepped
    obtain ⟨idle, ran, done, rfl⟩ := stepped
    have next : Leaving { c with request := ran.1 } := ⟨leaving.returned, requested⟩
    have fell : (Call.perform { c with request := ran.1 } ran.2).rank < c.rank := by
      apply Nat.lt_of_le_of_lt (perform_rank_le next.requested ran.2)
      simpa [rank, idle] using task_rank done
    exact ⟨next.perform ran.2, fell.le, fun _ => fell⟩
  | callback cb =>
    simp only [Call.step, Option.ite_none_right_eq_some, Option.map_eq_some_iff] at stepped
    obtain ⟨idle, request, accepted, rfl⟩ := stepped
    have next : Leaving { c with request, observer := (c.callbackOps cb).1 } := ⟨leaving.returned, requested⟩
    refine ⟨next.perform _, ?_⟩
    by_cases working : (Label.callback cb).works = true
    · have fell : (c.receive cb request).rank < c.rank := by
        apply Nat.lt_of_le_of_lt (perform_rank_le next.requested _)
        have light := callback_weight c cb
        have paid := callback_rank accepted working
        simp only [rank, idle, weight_nil]
        omega
      exact ⟨fell.le, fun _ => fell⟩
    · refine ⟨?_, fun work => absurd work working⟩
      -- only the metrics come for nothing, and storing them is all there is to do
      cases cb with
      | onMetricsCollected metrics =>
        cases metrics_rank accepted
        have paid : (c.receive (.onMetricsCollected metrics) c.request).rank <
            c.request.rank + weight [.setMetrics metrics] := perform_rank next.requested
        simp only [rank, idle, weight_cons, weight_nil, NetOp.weight] at paid ⊢
        omega
      | _ => exact absurd rfl working

/-- How far `OnDestroyed` has got with a call whose request is gone. -/
inductive Ending (c : Call) : Prop where
  | unregistering {before : List NetOp} (net : c.net = before ++ [.unregisterCall, .clearRequest, .signalReleased])
      (unsignalled : NetOp.signalReleased ∉ before) (unreleased : c.shared.released = false)
  | clearing (net : c.net = [.clearRequest, .signalReleased]) (unregistered : c.registered = false)
      (unreleased : c.shared.released = false)
  | signalling (net : c.net = [.signalReleased]) (unregistered : c.registered = false)
      (cleared : c.shared.hasRequest = false) (unreleased : c.shared.released = false)
  | released (net : c.net = []) (unregistered : c.registered = false) (cleared : c.shared.hasRequest = false)
      (released : c.shared.released = true)

theorem exec_released {op : NetOp} (other : op ≠ .signalReleased) : (c.exec op).1.shared.released = c.shared.released := by
  cases op with
  | signalReleased => exact absurd rfl other
  | claimOutcome | publishUnpublished =>
    simp only [exec]
    split <;> rfl
  | destroyRequest flag =>
    simp only [exec, destroyRequest, CallState.destroyRequest]
    split <;> rfl
  | setMetrics metrics =>
    simp only [exec, CallState.setMetrics]
    split <;> rfl
  | _ => rfl

theorem exec_pushes_unsignalled (op : NetOp) : NetOp.signalReleased ∉ (c.exec op).2 := by
  cases op <;> simp only [exec] <;> (try split) <;> simp [finishStores]

theorem Ending.congr (ending : c.Ending) (net : d.net = c.net) (registered : d.registered = c.registered)
    (hasRequest : d.shared.hasRequest = c.shared.hasRequest) (released : d.shared.released = c.shared.released) :
    d.Ending := by
  cases ending with
  | unregistering left unsignalled unreleased =>
    exact .unregistering (net.trans left) unsignalled (released.trans unreleased)
  | clearing left unregistered unreleased =>
    exact .clearing (net.trans left) (registered.trans unregistered) (released.trans unreleased)
  | signalling left unregistered cleared unreleased =>
    exact .signalling (net.trans left) (registered.trans unregistered) (hasRequest.trans cleared)
      (released.trans unreleased)
  | released left unregistered cleared done =>
    exact .released (net.trans left) (registered.trans unregistered) (hasRequest.trans cleared) (released.trans done)

theorem Ending.perform {ops : List NetOp} (ending : Ending { c with net := ops }) : Ending (c.perform ops) := by
  cases ending with
  | unregistering net unsignalled unreleased =>
    rename_i before
    cases net
    cases before with
    | nil => exact .clearing rfl rfl unreleased
    | cons op before =>
      have others : NetOp.signalReleased ≠ op ∧ NetOp.signalReleased ∉ before := by simpa using unsignalled
      have left : (c.exec op).2 ++ (before ++ [.unregisterCall, .clearRequest, .signalReleased]) =
          (c.exec op).2 ++ before ++ [.unregisterCall, .clearRequest, .signalReleased] := (List.append_assoc _ _ _).symm
      apply Ending.unregistering left
      · simp [exec_pushes_unsignalled op, others.2]
      · exact (exec_released (Ne.symm others.1)).trans unreleased
  | clearing net unregistered unreleased =>
    cases net
    exact .signalling rfl unregistered rfl unreleased
  | signalling net unregistered cleared unreleased =>
    cases net
    exact .released rfl unregistered cleared rfl
  | released net unregistered cleared done =>
    cases net
    exact .released rfl unregistered cleared done

/-- `released_` comes last, and the task that leads to it is posted with the first teardown asked for. -/
structure ReleaseInv (c : Call) : Prop where
  pending : c.shared.destroyRequested = true → c.request.phase ≠ .dead →
    ∃ flag, Task.destroy flag ∈ c.request.posted.drop c.request.ran
  alive : c.request.phase ≠ .dead → c.shared.released = false ∧ NetOp.signalReleased ∉ c.net
  ending : c.request.phase = .dead → c.Ending

theorem releaseInv_initial (url : String) (maxRedirects : Int) : ReleaseInv (initial url maxRedirects) := by
  constructor <;> simp [initial, CallState.initial, UrlRequest.initial]

theorem pending_post {posted tasks : List Task} {ran : Nat} (due : ran ≤ posted.length)
    (pending : ∃ flag, Task.destroy flag ∈ posted.drop ran) : ∃ flag, Task.destroy flag ∈ (posted ++ tasks).drop ran := by
  rw [List.drop_append_of_le_length due]
  exact pending.imp fun _ member => List.mem_append_left _ member

theorem pending_destroyRequest (due : c.request.ran ≤ c.request.posted.length)
    (pending : c.shared.destroyRequested = true → ∃ flag, Task.destroy flag ∈ c.request.posted.drop c.request.ran)
    (sendOnCanceled : Bool) (requested : (c.destroyRequest sendOnCanceled).shared.destroyRequested = true) :
    ∃ flag, Task.destroy flag ∈ (c.destroyRequest sendOnCanceled).request.posted.drop c.request.ran := by
  by_cases open' : c.shared.mayPost = true
  · apply Exists.intro sendOnCanceled
    simp [destroyRequest, CallState.destroyRequest, open', UrlRequest.post, List.drop_append_of_le_length due]
  · have nothing : c.shared.destroyRequest sendOnCanceled = (c.shared, []) := if_neg open'
    simp only [destroyRequest, nothing, UrlRequest.post, List.append_nil] at requested ⊢
    exact pending requested

theorem exec_pending (due : c.request.ran ≤ c.request.posted.length)
    (pending : c.shared.destroyRequested = true → ∃ flag, Task.destroy flag ∈ c.request.posted.drop c.request.ran)
    (op : NetOp) (requested : (c.exec op).1.shared.destroyRequested = true) :
    ∃ flag, Task.destroy flag ∈ (c.exec op).1.request.posted.drop (c.exec op).1.request.ran := by
  cases op with
  | destroyRequest flag => exact pending_destroyRequest due pending flag requested
  | readData | followRedirect => exact pending_post due (pending requested)
  | claimOutcome | publishUnpublished =>
    revert requested
    simp only [exec]
    split <;> exact pending
  | setMetrics metrics =>
    apply pending
    simpa [exec] using requested
  | _ => exact pending requested

theorem ReleaseInv.perform {ops : List NetOp} (inv : ReleaseInv { c with net := ops })
    (due : c.request.ran ≤ c.request.posted.length) : ReleaseInv (c.perform ops) := by
  cases ops with
  | nil => exact inv
  | cons op rest =>
    have same : (c.perform (op :: rest)).request.phase = c.request.phase := exec_phase c op
    constructor
    · intro requested alive
      exact exec_pending due (fun asked => inv.pending asked (same ▸ alive)) op requested
    · intro alive
      have before := inv.alive (same ▸ alive)
      have others : NetOp.signalReleased ≠ op ∧ NetOp.signalReleased ∉ rest := by simpa using before.2
      apply And.intro
      · exact (exec_released (Ne.symm others.1)).trans before.1
      · simp [Call.perform, exec_pushes_unsignalled op, others.2]
    · intro dead
      exact (inv.ending (same ▸ dead)).perform

theorem runTask_pending {r : UrlRequest} {metrics : Option Metrics} {ran : UrlRequest × List NetOp}
    (done : r.runTask metrics = some ran) (pending : ∃ flag, Task.destroy flag ∈ r.posted.drop r.ran)
    (alive : ran.1.phase ≠ .dead) : ∃ flag, Task.destroy flag ∈ ran.1.posted.drop ran.1.ran := by
  unfold UrlRequest.runTask at done
  split at done
  · cases done
  · dsimp only at done
    split at done
    · cases done
    all_goals
      rename_i next
      have queue := List.drop_eq_getElem_cons (List.getElem?_eq_some_iff.mp next).1
      rw [(List.getElem?_eq_some_iff.mp next).2] at queue
      rw [queue] at pending
      cases done
    · simpa [apply_ite UrlRequest.posted, apply_ite UrlRequest.ran] using pending
    · simpa using pending
    · simpa [apply_ite UrlRequest.posted, apply_ite UrlRequest.ran] using pending
    · exact absurd rfl alive

theorem runTask_ends {r : UrlRequest} {metrics : Option Metrics} {ran : UrlRequest × List NetOp}
    (done : r.runTask metrics = some ran) :
    (ran.1.phase ≠ .dead ∧ NetOp.signalReleased ∉ ran.2) ∨ (ran.1.phase = .dead ∧ ∃ before,
      ran.2 = before ++ [.unregisterCall, .clearRequest, .signalReleased] ∧ NetOp.signalReleased ∉ before) := by
  by_cases dead : ran.1.phase = .dead
  · unfold UrlRequest.runTask at done
    split at done
    · cases done
    · dsimp only at done
      split at done
      · cases done
      · cases done
        split at dead <;> simp_all
      · cases done
        simp_all
      · cases done
        split at dead <;> simp_all
      · rename_i flag _
        cases done
        apply Or.inr
        refine ⟨rfl, (metrics.map RequestObserver.onMetricsCollected).getD [] ++
          (if flag then RequestObserver.onCanceled else []) ++
            [.claimOutcome CRONET_ERROR_ABORTED "the call ended without a result"], by
          simp [RequestObserver.onDestroyed], ?_⟩
        cases metrics <;> cases flag <;> simp [RequestObserver.onMetricsCollected, RequestObserver.onCanceled]
  · apply Or.inl
    simp [(task_spec done).silent dead, dead]

theorem callbackOps_unsignalled (c : Call) (cb : Callback) : NetOp.signalReleased ∉ (c.callbackOps cb).2 := by
  cases cb with
  | onReceivedRedirect newLocation head =>
    simp only [callbackOps, RequestObserver.onReceivedRedirect, RequestObserver.responseOps]
    split
    · split <;> simp
    · simp
  | _ => simp [callbackOps, RequestObserver.onResponseStarted, RequestObserver.responseOps,
      RequestObserver.onReadCompleted, RequestObserver.onSucceeded, RequestObserver.onError,
      RequestObserver.onMetricsCollected]

theorem accepts_ran {r next : UrlRequest} {cb : Callback} (accepted : r.accepts cb = some next) : next.ran = r.ran := by
  cases cb <;> simp only [UrlRequest.accepts] at accepted <;> split at accepted <;> cases accepted <;> rfl

theorem ReleaseInv.aside (inv : ReleaseInv c) (net : d.net = c.net) (phase : d.request.phase = c.request.phase)
    (registered : d.registered = c.registered) (hasRequest : d.shared.hasRequest = c.shared.hasRequest)
    (released : d.shared.released = c.shared.released)
    (pending : d.shared.destroyRequested = true → d.request.phase ≠ .dead →
      ∃ flag, Task.destroy flag ∈ d.request.posted.drop d.request.ran) : ReleaseInv d := by
  constructor
  · exact pending
  · rw [phase, net, released]
    exact inv.alive
  · intro dead
    exact (inv.ending (phase ▸ dead)).congr net registered hasRequest released

theorem ReleaseInv.step (inv : ReleaseInv c) (held : CallInv c) (stepped : c.step label = some d) : ReleaseInv d := by
  have due := held.opened.ran
  cases label with
  | rejectUrl | construct | read | drain =>
    simp only [Call.step, Option.ite_none_right_eq_some, Option.some.injEq] at stepped
    obtain ⟨_, rfl⟩ := stepped
    exact inv.aside rfl rfl rfl rfl rfl inv.pending
  | registerCall | attachRequest =>
    simp only [Call.step, Option.ite_none_right_eq_some, Option.some.injEq] at stepped
    obtain ⟨early, rfl⟩ := stepped
    -- nothing has been posted for a call that has no request
    have fresh := held.teardown.unattached (by simp [early]) (by simp [early])
    have idle : c.request.phase = .idle := by simp [fresh.2.1, UrlRequest.initial]
    exact ⟨inv.pending, inv.alive, fun dead => absurd (idle.symm.trans dead) nofun⟩
  | start | resume =>
    simp only [Call.step, Option.ite_none_right_eq_some, Option.some.injEq] at stepped
    obtain ⟨_, rfl⟩ := stepped
    exact inv.aside rfl rfl rfl rfl rfl fun requested alive => pending_post due (inv.pending requested alive)
  | cancel who =>
    simp only [Call.step, Option.ite_none_right_eq_some, Option.some.injEq] at stepped
    obtain ⟨_, rfl⟩ := stepped
    have released : c.cancel.shared.released = c.shared.released := @exec_released c (.destroyRequest true) nofun
    exact inv.aside rfl rfl rfl (CallState.destroyRequest_hasRequest c.shared true) released fun requested alive =>
      pending_destroyRequest due (fun asked => inv.pending asked alive) true requested
  | op =>
    simp only [Call.step, Option.ite_none_left_eq_some, Option.some.injEq] at stepped
    obtain ⟨_, rfl⟩ := stepped
    exact ReleaseInv.perform inv due
  | task metrics =>
    simp only [Call.step, Option.ite_none_right_eq_some, Option.map_eq_some_iff] at stepped
    obtain ⟨idle, ran, done, rfl⟩ := stepped
    have alive := (runTask_unregisters done).2.2
    have unreleased := (inv.alive alive).1
    apply ReleaseInv.perform
    · rcases runTask_ends done with ⟨survives, silent⟩ | ⟨dead, before, ops, unsignalled⟩
      · exact ⟨fun requested _ => runTask_pending done (inv.pending requested alive) survives,
          fun _ => ⟨unreleased, silent⟩, fun dead => absurd dead survives⟩
      · exact ⟨fun _ survives => absurd dead survives, fun survives => absurd dead survives,
          fun _ => .unregistering ops unsignalled unreleased⟩
    · exact (task_spec done).posted ▸ (task_spec done).within
  | callback cb =>
    simp only [Call.step, Option.ite_none_right_eq_some, Option.map_eq_some_iff] at stepped
    obtain ⟨idle, next, accepted, rfl⟩ := stepped
    have alive := accepts_alive accepted
    apply ReleaseInv.perform
    · constructor
      · intro requested _
        show ∃ flag, Task.destroy flag ∈ next.posted.drop next.ran
        rw [UrlRequest.accepts_posted accepted, accepts_ran accepted]
        exact inv.pending requested alive
      · intro _
        exact ⟨(inv.alive alive).1, callbackOps_unsignalled c cb⟩
      · intro dead
        exact absurd dead (accepts_phase accepted)
    · show next.ran ≤ next.posted.length
      rwa [UrlRequest.accepts_posted accepted, accepts_ran accepted]

theorem releaseInv_of_run {url : String} {maxRedirects : Int} {labels : List Label}
    (ran : machine.run (initial url maxRedirects) labels = some c) : ReleaseInv c :=
  (Machine.invariant (fun c => ReleaseInv c ∧ CallInv c)
    ⟨releaseInv_initial url maxRedirects, callInv_initial url maxRedirects⟩
    (fun _ _ _ inv stepped => ⟨inv.1.step inv.2 stepped, inv.2.step stepped⟩) ran).1

theorem Leaving.busy (leaving : c.Leaving) (inv : ReleaseInv c) (unreleased : c.shared.released = false) :
    ∃ label d, label.works = true ∧ c.step label = some d := by
  by_cases idle : c.net = []
  · have alive : c.request.phase ≠ .dead := by
      intro dead
      cases inv.ending dead <;> simp_all
    rcases inv.pending leaving.requested alive with ⟨flag, member⟩
    have due : c.request.ran < c.request.posted.length := by
      by_contra past
      rw [List.drop_eq_nil_of_le (by omega)] at member
      cases member
    -- whichever task is next, the request is alive to run it
    have runs : (c.request.runTask none).isSome = true := by
      simp only [UrlRequest.runTask, if_neg alive, List.getElem?_eq_getElem due]
      split <;> simp_all
    rcases Option.isSome_iff_exists.mp runs with ⟨ran, done⟩
    exact ⟨.task none, _, rfl, by simp only [Call.step, if_pos idle, done]; rfl⟩
  · exact ⟨.op, _, rfl, if_neg idle⟩

/-- What holds of a call between its `Cancel` and the end of `cronet_call_free`. -/
structure Freeing (c : Call) : Prop where
  leaving : c.Leaving
  release : ReleaseInv c
  call : CallInv c

def freeingRank : machine.Ranking Label.works Freeing where
  rank := rank
  kept inv stepped := ⟨(inv.leaving.step stepped).1, inv.release.step inv.call stepped, inv.call.step stepped⟩
  falls inv stepped := (inv.leaving.step stepped).2.2
  stays inv stepped := (inv.leaving.step stepped).2.1

/-- Nothing is left to the network thread of a call that has been released. -/
theorem ReleaseInv.rests (inv : ReleaseInv c) (released : c.shared.released = true) :
    c.registered = false ∧ c.shared.hasRequest = false ∧ c.request.phase = .dead ∧
      c.step .op = none ∧ (∀ metrics, c.step (.task metrics) = none) ∧ ∀ cb, c.step (.callback cb) = none := by
  have dead : c.request.phase = .dead := by
    by_contra alive
    exact Bool.noConfusion ((inv.alive alive).1.symm.trans released)
  cases inv.ending dead with
  | released net unregistered cleared =>
    apply And.intro unregistered
    apply And.intro cleared
    apply And.intro dead
    apply And.intro (if_pos net)
    apply And.intro
    · intro metrics
      simp [Call.step, net, UrlRequest.runTask, dead]
    · intro cb
      cases cb <;> simp [Call.step, net, UrlRequest.accepts, dead]
  | unregistering _ _ unreleased | clearing _ _ unreleased | signalling _ _ _ unreleased =>
    exact Bool.noConfusion (unreleased.symm.trans released)

theorem ReleaseInv.released_step (inv : ReleaseInv c) (released : c.shared.released = true)
    (stepped : c.step label = some d) :
    label.works = false ∧ d.shared.released = true := by
  have rests := inv.rests released
  cases label with
  | op => exact absurd (rests.2.2.2.1.symm.trans stepped) (Option.some_ne_none d).symm
  | task metrics => exact absurd ((rests.2.2.2.2.1 metrics).symm.trans stepped) (Option.some_ne_none d).symm
  | callback cb => exact absurd ((rests.2.2.2.2.2 cb).symm.trans stepped) (Option.some_ne_none d).symm
  | cancel who =>
    simp only [Call.step, Option.ite_none_right_eq_some, Option.some.injEq] at stepped
    obtain ⟨_, rfl⟩ := stepped
    exact ⟨rfl, (@exec_released c (.destroyRequest true) (fun same => by cases same)).trans released⟩
  | _ =>
    simp only [Call.step, Option.ite_none_right_eq_some, Option.some.injEq] at stepped
    obtain ⟨_, rfl⟩ := stepped
    exact ⟨rfl, released⟩

theorem released_run (inv : ReleaseInv c) (held : CallInv c) (released : c.shared.released = true) {labels : List Label}
    (ran : machine.run c labels = some d) : labels.countP Label.works = 0 ∧ d.shared.released = true := by
  induction labels generalizing c with
  | nil =>
    cases ran
    exact ⟨rfl, released⟩
  | cons label labels ih =>
    rcases Machine.run_cons.mp ran with ⟨e, stepped, rest⟩
    have quiet := inv.released_step released stepped
    have later := ih (inv.step held stepped) (held.step stepped) quiet.2 rest
    simp [quiet.1, later]

/-- `cronet_call_free` returns: after its `Cancel` the network thread has at most `rank` steps for the call, the metrics
    apart; it is never out of work before `released_`, and once it has signalled that it has none. -/
theorem free_returns {url : String} {maxRedirects : Int} {labels later : List Label} {c d : Call}
    (ran : machine.run (initial url maxRedirects) labels = some c) (returned : c.starter = .returned)
    (ranOn : machine.run c.cancel later = some d) :
    later.countP Label.works ≤ c.cancel.rank ∧
      (d.shared.released = false → ∃ label e, label.works = true ∧ d.step label = some e) ∧
      (c.cancel.rank ≤ later.countP Label.works → d.shared.released = true) ∧
      (d.shared.released = true → d.shared.state = .done ∧ d.registered = false ∧ d.shared.hasRequest = false ∧
        ∀ more e, machine.run d more = some e → more.countP Label.works = 0 ∧ e.shared.released = true) := by
  have cancelled : machine.run (initial url maxRedirects) (labels ++ [.cancel .handle]) = some c.cancel := by
    apply Machine.run_snoc.mpr
    exact ⟨c, ran, by simp [machine, Call.step, mayCancel, returned]⟩
  have whole := Machine.run_append.mpr ⟨c.cancel, cancelled, ranOn⟩
  have freeing : Freeing c.cancel :=
    ⟨⟨returned, (teardownInv_of_run ran).cancel_requests (.inr returned)⟩, releaseInv_of_run cancelled,
      callInv_of_run cancelled⟩
  have inv := freeingRank.run freeing ranOn
  apply And.intro
  · exact Nat.le_trans (Nat.le_add_right _ _) (freeingRank.spent freeing ranOn)
  apply And.intro
  · exact inv.leaving.busy inv.release
  apply And.intro
  · apply freeingRank.done_of_spent (fun c => c.shared.released = true) _ freeing ranOn
    intro c inv unreleased
    exact inv.leaving.busy inv.release (by simpa using unreleased)
  · intro released
    have rests := inv.release.rests released
    exact ⟨(inProgress_of_run whole).2.recording.released released, rests.1, rests.2.1,
      fun more e ranMore => released_run inv.release inv.call released ranMore⟩

theorem free_returns_started :
    ∃ c later d, machine.run (initial "http://a/" 20) [.registerCall true, .construct, .attachRequest, .start] = some c ∧
      machine.run c.cancel later = some d ∧ d.shared.state = .done := by
  have starts : ∃ c, machine.run (initial "http://a/" 20) [.registerCall true, .construct, .attachRequest, .start] = some c ∧
      c.starter = .returned ∧ ∃ d, machine.run c.cancel ([.task none, .task none] ++ List.replicate 11 .op) = some d ∧
        d.shared.released = true := ⟨_, rfl, rfl, _, rfl, rfl⟩
  rcases starts with ⟨c, ran, returned, d, ranOn, released⟩
  exact ⟨c, _, d, ran, ranOn, ((free_returns ran returned ranOn).2.2.2 released).1⟩

end Call

end Cronet.Native
