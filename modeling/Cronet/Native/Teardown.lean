import Cronet.Native.Call

namespace Cronet.Native

theorem CallState.mayPost_iff {s : CallState} :
    s.mayPost = true ↔ s.hasRequest = true ∧ s.destroyRequested = false := by
  simp [mayPost]

namespace Call

theorem exec_posted (c : Call) (op : NetOp) : ∃ more, (c.exec op).1.request.posted = c.request.posted ++ more := by
  cases op with
  | followRedirect => exact ⟨_, rfl⟩
  | readData => exact ⟨_, rfl⟩
  | destroyRequest sendOnCanceled => exact ⟨_, rfl⟩
  | claimOutcome code message => exact ⟨[], by simp only [exec]; split <;> simp⟩
  | publishUnpublished => exact ⟨[], by simp only [exec]; split <;> simp⟩
  | _ => exact ⟨[], by simp [exec]⟩

theorem perform_posted (c : Call) (ops : List NetOp) :
    ∃ more, (c.perform ops).request.posted = c.request.posted ++ more := by
  cases ops with
  | nil => exact ⟨[], by simp [perform]⟩
  | cons op rest => exact exec_posted c op

theorem step_posted {c d : Call} {label : Label} (stepped : c.step label = some d) :
    ∃ more, d.request.posted = c.request.posted ++ more := by
  cases label with
  | task metrics =>
    simp only [step, Option.ite_none_right_eq_some, Option.map_eq_some_iff] at stepped
    obtain ⟨_, ran, done, rfl⟩ := stepped
    rw [← UrlRequest.runTask_posted done]
    exact perform_posted _ _
  | callback cb =>
    simp only [step, Option.ite_none_right_eq_some, Option.map_eq_some_iff] at stepped
    obtain ⟨_, next, accepted, rfl⟩ := stepped
    rw [← UrlRequest.accepts_posted accepted]
    exact perform_posted _ _
  | op =>
    simp only [step, Option.ite_none_left_eq_some, Option.some.injEq] at stepped
    obtain ⟨_, rfl⟩ := stepped
    exact perform_posted c c.net
  | start | cancel | resume =>
    simp only [step, Option.ite_none_right_eq_some, Option.some.injEq] at stepped
    obtain ⟨_, rfl⟩ := stepped
    exact ⟨_, rfl⟩
  | rejectUrl | registerCall | construct | attachRequest | read | drain =>
    simp only [step, Option.ite_none_right_eq_some, Option.some.injEq] at stepped
    obtain ⟨_, rfl⟩ := stepped
    exact ⟨[], (List.append_nil _).symm⟩

/-- `destroy_requested_` says whether a `Destroy` has been posted, and the request pointer is
    cleared by that `Destroy` alone. -/
structure TeardownInv (c : Call) : Prop where
  requested : c.shared.destroyRequested = true ↔ ∃ sendOnCanceled, Task.destroy sendOnCanceled ∈ c.request.posted
  cleared : NetOp.clearRequest ∈ c.net → c.shared.destroyRequested = true
  attached : c.starter = .attached ∨ c.starter = .returned →
    c.shared.hasRequest = true ∨ c.shared.destroyRequested = true
  dead : c.request.phase = .dead → c.shared.destroyRequested = true
  unattached : c.starter ≠ .attached → c.starter ≠ .returned →
    c.shared.hasRequest = false ∧ c.request = .initial ∧ c.net = [] ∧ c.resuming = 0

theorem teardownInv_initial (url : String) (maxRedirects : Int) : TeardownInv (initial url maxRedirects) := by
  constructor <;> simp [initial, CallState.initial, UrlRequest.initial]

theorem TeardownInv.attached_of_busy {c : Call} (inv : TeardownInv c)
    (busy : c.request ≠ .initial ∨ c.net ≠ [] ∨ 0 < c.resuming) : c.starter = .attached ∨ c.starter = .returned := by
  by_contra early
  push Not at early
  obtain ⟨_, request, net, resuming⟩ := inv.unattached early.1 early.2
  simp [request, net, resuming] at busy

theorem not_initial_of_runTask {r : UrlRequest} {metrics : Option Metrics} {ran : UrlRequest × List NetOp}
    (done : r.runTask metrics = some ran) : r ≠ .initial := by
  intro initial
  simp [initial, UrlRequest.initial, UrlRequest.runTask] at done

theorem not_initial_of_accepts {r next : UrlRequest} {cb : Callback} (accepted : r.accepts cb = some next) :
    r ≠ .initial := by
  intro initial
  cases cb <;> simp [initial, UrlRequest.initial, UrlRequest.accepts] at accepted

theorem requested_post {c : Call} {tasks : List Task} (plain : ∀ task ∈ tasks, task.isDestroy = false)
    (requested : c.shared.destroyRequested = true ↔ ∃ flag, Task.destroy flag ∈ c.request.posted) :
    (c.post tasks).shared.destroyRequested = true ↔ ∃ flag, Task.destroy flag ∈ (c.post tasks).request.posted := by
  have none_new : ∀ flag, Task.destroy flag ∉ tasks := fun flag member => by
    simpa [Task.isDestroy] using plain _ member
  simpa [post, UrlRequest.post, none_new] using requested

theorem requested_destroyRequest {c : Call} (sendOnCanceled : Bool)
    (requested : c.shared.destroyRequested = true ↔ ∃ flag, Task.destroy flag ∈ c.request.posted) :
    (c.destroyRequest sendOnCanceled).shared.destroyRequested = true ↔
      ∃ flag, Task.destroy flag ∈ (c.destroyRequest sendOnCanceled).request.posted := by
  unfold destroyRequest CallState.destroyRequest
  split
  · simp only [UrlRequest.post, List.mem_append, List.mem_singleton, true_iff]
    exact ⟨sendOnCanceled, .inr rfl⟩
  · simpa [UrlRequest.post] using requested

theorem readData_plain (s : CallState) : ∀ task ∈ s.readData, task.isDestroy = false := by
  unfold CallState.readData
  split <;> simp [Task.isDestroy]

theorem followRedirect_plain (s : CallState) : ∀ task ∈ s.followRedirect, task.isDestroy = false := by
  unfold CallState.followRedirect
  split <;> simp [Task.isDestroy]

theorem requested_exec {c : Call} (op : NetOp)
    (requested : c.shared.destroyRequested = true ↔ ∃ flag, Task.destroy flag ∈ c.request.posted) :
    (c.exec op).1.shared.destroyRequested = true ↔ ∃ flag, Task.destroy flag ∈ (c.exec op).1.request.posted := by
  cases op with
  | readData => exact requested_post (readData_plain _) requested
  | followRedirect => exact requested_post (followRedirect_plain _) requested
  | destroyRequest sendOnCanceled => exact requested_destroyRequest sendOnCanceled requested
  | claimOutcome code message => simp only [exec]; split <;> exact requested
  | publishUnpublished => simp only [exec]; split <;> exact requested
  | setMetrics metrics => simpa [exec] using requested
  | _ => exact requested

theorem exec_hasRequest {c : Call} {op : NetOp} (kept : op ≠ .clearRequest) :
    (c.exec op).1.shared.hasRequest = c.shared.hasRequest := by
  cases op with
  | clearRequest => exact absurd rfl kept
  | claimOutcome code message => simp only [exec]; split <;> rfl
  | publishUnpublished => simp only [exec]; split <;> rfl
  | _ => simp [exec, destroyRequest, post, CallState.signalProgress]

theorem destroyRequest_keeps {c : Call} (sendOnCanceled : Bool) (requested : c.shared.destroyRequested = true) :
    (c.destroyRequest sendOnCanceled).shared.destroyRequested = true := by
  unfold destroyRequest CallState.destroyRequest
  split
  · rfl
  · exact requested

theorem exec_keeps_destroyRequested {c : Call} (op : NetOp) (requested : c.shared.destroyRequested = true) :
    (c.exec op).1.shared.destroyRequested = true := by
  cases op with
  | destroyRequest sendOnCanceled => exact destroyRequest_keeps sendOnCanceled requested
  | claimOutcome code message => simp only [exec]; split <;> exact requested
  | publishUnpublished => simp only [exec]; split <;> exact requested
  | setMetrics metrics => simpa [exec] using requested
  | _ => exact requested

theorem exec_phase (c : Call) (op : NetOp) : (c.exec op).1.request.phase = c.request.phase := by
  cases op <;> simp only [exec] <;> (try split) <;> rfl

theorem TeardownInv.perform {c : Call} {ops : List NetOp} (inv : TeardownInv { c with net := ops }) :
    TeardownInv (c.perform ops) := by
  cases ops with
  | nil => exact inv
  | cons op rest =>
    have keeps := exec_keeps_destroyRequested (c := c) op
    have ready := inv.attached_of_busy (.inr (.inl (by simp)))
    refine ⟨requested_exec op inv.requested, ?_, ?_, ?_, ?_⟩
    · intro member
      rcases List.mem_append.mp member with pushed | later
      · exact absurd rfl (not_teardown_of_pushed _ pushed).2
      · exact keeps (inv.cleared (List.mem_cons_of_mem _ later))
    · intro ready
      by_cases clears : op = .clearRequest
      · exact .inr (keeps (inv.cleared (by simp [clears])))
      · rcases inv.attached (by simpa [Call.perform] using ready) with has | requested
        · exact .inl ((exec_hasRequest clears).trans has)
        · exact .inr (keeps requested)
    · intro dead
      exact keeps (inv.dead ((exec_phase c op).symm.trans dead))
    · intro early late
      simp only [perform_starter] at early late
      simp [early, late] at ready

theorem accepts_phase {r next : UrlRequest} {cb : Callback} (accepted : r.accepts cb = some next) :
    next.phase ≠ .dead := by
  cases cb <;> simp only [UrlRequest.accepts] at accepted <;> split at accepted <;> cases accepted <;>
    simp_all

theorem runTask_destroys {r : UrlRequest} {metrics : Option Metrics} {ran : UrlRequest × List NetOp}
    (done : r.runTask metrics = some ran) (teardown : ran.1.phase = .dead ∨ NetOp.clearRequest ∈ ran.2) :
    ∃ flag, Task.destroy flag ∈ r.posted := by
  unfold UrlRequest.runTask at done
  split at done
  · cases done
  · rename_i alive
    dsimp only at done
    split at done
    · cases done
    · cases done
      split at teardown <;> simp_all
    · cases done
      simp_all
    · cases done
      split at teardown <;> simp_all
    · rename_i flag next
      exact ⟨flag, List.mem_of_getElem? next⟩

theorem TeardownInv.cancel {c : Call} (inv : TeardownInv c) : TeardownInv c.cancel := by
  have keeps := destroyRequest_keeps (c := c) true
  refine ⟨requested_destroyRequest true inv.requested, fun member => keeps (inv.cleared member), ?_,
    fun dead => keeps (inv.dead dead), ?_⟩
  · intro ready
    rcases inv.attached ready with has | requested
    · exact .inl ((CallState.destroyRequest_hasRequest c.shared true).trans has)
    · exact .inr (keeps requested)
  · intro early late
    obtain ⟨detached, request, net, resuming⟩ := inv.unattached early late
    refine ⟨(CallState.destroyRequest_hasRequest c.shared true).trans detached, ?_, net, resuming⟩
    simp [Call.cancel, destroyRequest, CallState.destroyRequest, CallState.mayPost, detached, UrlRequest.post, request]

theorem TeardownInv.cancel_requests {c : Call} (inv : TeardownInv c)
    (ready : c.starter = .attached ∨ c.starter = .returned) : c.cancel.shared.destroyRequested = true := by
  by_cases requested : c.shared.destroyRequested = true
  · exact destroyRequest_keeps true requested
  · have has := (inv.attached ready).resolve_right requested
    have may : c.shared.mayPost = true := CallState.mayPost_iff.mpr ⟨has, by simpa using requested⟩
    simp [Call.cancel, destroyRequest, CallState.destroyRequest, may]

theorem TeardownInv.step {c d : Call} {label : Label} (inv : TeardownInv c) (stepped : c.step label = some d) :
    TeardownInv d := by
  cases label with
  | rejectUrl | registerCall accepted | construct =>
    simp only [Call.step, Option.ite_none_right_eq_some, Option.some.injEq] at stepped
    obtain ⟨starter, rfl⟩ := stepped
    refine ⟨inv.requested, inv.cleared, ?_, inv.dead, fun _ _ => inv.unattached (by simp [starter]) (by simp [starter])⟩
    try cases accepted
    all_goals simp
  | attachRequest =>
    simp only [Call.step, Option.ite_none_right_eq_some, Option.some.injEq] at stepped
    obtain ⟨_, rfl⟩ := stepped
    exact ⟨inv.requested, inv.cleared, fun _ => .inl rfl, inv.dead, fun early => absurd rfl early⟩
  | start =>
    simp only [Call.step, Option.ite_none_right_eq_some, Option.some.injEq] at stepped
    obtain ⟨attached, rfl⟩ := stepped
    exact ⟨requested_post (by simp [Task.isDestroy]) inv.requested, inv.cleared,
      fun _ => inv.attached (.inl attached), inv.dead, fun _ early => absurd rfl early⟩
  | cancel who =>
    simp only [Call.step, Option.ite_none_right_eq_some, Option.some.injEq] at stepped
    obtain ⟨_, rfl⟩ := stepped
    exact inv.cancel
  | read capacity ret =>
    simp only [Call.step, Option.ite_none_right_eq_some, Option.some.injEq] at stepped
    obtain ⟨⟨returned, _⟩, rfl⟩ := stepped
    exact ⟨inv.requested, inv.cleared, inv.attached, inv.dead, fun _ early => absurd returned early⟩
  | drain =>
    simp only [Call.step, Option.ite_none_right_eq_some, Option.some.injEq] at stepped
    obtain ⟨_, rfl⟩ := stepped
    exact ⟨inv.requested, inv.cleared, inv.attached, inv.dead, inv.unattached⟩
  | resume =>
    simp only [Call.step, Option.ite_none_right_eq_some, Option.some.injEq] at stepped
    obtain ⟨owed, rfl⟩ := stepped
    have ready := inv.attached_of_busy (.inr (.inr owed))
    exact ⟨requested_post (readData_plain _) inv.requested, inv.cleared, inv.attached, inv.dead,
      fun early late => by simp_all [post]⟩
  | op =>
    simp only [Call.step, Option.ite_none_left_eq_some, Option.some.injEq] at stepped
    obtain ⟨_, rfl⟩ := stepped
    exact TeardownInv.perform inv
  | task metrics =>
    simp only [Call.step, Option.ite_none_right_eq_some, Option.map_eq_some_iff] at stepped
    obtain ⟨_, ran, done, rfl⟩ := stepped
    have destroys := fun teardown => inv.requested.mpr (runTask_destroys done teardown)
    have ready := inv.attached_of_busy (.inl (not_initial_of_runTask done))
    apply TeardownInv.perform
    refine ⟨?_, fun member => destroys (.inr member), inv.attached, fun dead => destroys (.inl dead),
      fun early late => by simp_all⟩
    simpa only [UrlRequest.runTask_posted done] using inv.requested
  | callback cb =>
    simp only [Call.step, Option.ite_none_right_eq_some, Option.map_eq_some_iff] at stepped
    obtain ⟨_, next, accepted, rfl⟩ := stepped
    have ready := inv.attached_of_busy (.inl (not_initial_of_accepts accepted))
    apply TeardownInv.perform
    refine ⟨?_, fun member => absurd member (not_mem_callbackOps rfl), inv.attached,
      fun dead => absurd dead (accepts_phase accepted), fun early late => by simp_all⟩
    simpa only [UrlRequest.accepts_posted accepted] using inv.requested

theorem TeardownInv.keeps_requested {c d : Call} {label : Label} (inv : TeardownInv c)
    (stepped : c.step label = some d) (requested : c.shared.destroyRequested = true) :
    d.shared.destroyRequested = true := by
  obtain ⟨more, grown⟩ := step_posted stepped
  obtain ⟨flag, member⟩ := inv.requested.mp requested
  exact (inv.step stepped).requested.mpr ⟨flag, by simp [grown, member]⟩

theorem teardownInv_of_run {url : String} {maxRedirects : Int} {labels : List Label} {c : Call}
    (ran : machine.run (initial url maxRedirects) labels = some c) : TeardownInv c :=
  Machine.invariant TeardownInv (teardownInv_initial url maxRedirects) (fun _ _ _ inv stepped => inv.step stepped) ran

end Call

end Cronet.Native
