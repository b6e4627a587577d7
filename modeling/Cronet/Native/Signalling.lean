import Cronet.Native.Progress

namespace Cronet.Native

/-- The stores between the end of the body and the signal of `Finish`. -/
def NetOp.finishes : NetOp → Bool
  | publishUnpublished | storeErrorMessage _ | storeErrorCode _ | storeDone | signalFinished => true
  | _ => false

def signals : List NetOp → Bool
  | [] => false
  | .signalProgress :: _ => true
  | op :: rest => op.finishes && signals rest

def paired : List NetOp → Bool
  | [] => true
  | .storeHeaders :: rest => rest.head? = some .signalProgress && paired rest
  | _ :: rest => paired rest

def NetOp.tells : NetOp → Bool
  | storeHeaders | onData _ | completeBody | storeDone => true
  | _ => false

theorem signals_of_head {ops : List NetOp} (next : ops.head? = some .signalProgress) : signals ops = true := by
  obtain ⟨rest, rfl⟩ := List.head?_eq_some_iff.mp next
  rfl

theorem signals_cons {op : NetOp} {rest : List NetOp} (silent : op ≠ .signalProgress) :
    signals (op :: rest) = (op.finishes && signals rest) := by
  cases op with
  | signalProgress => exact absurd rfl silent
  | _ => rfl

theorem paired_tail {op : NetOp} {rest : List NetOp} (pairs : paired (op :: rest) = true) : paired rest = true := by
  cases op with
  | storeHeaders =>
    simp only [paired, Bool.and_eq_true] at pairs
    exact pairs.2
  | _ => exact pairs

theorem paired_append {first rest : List NetOp} (plain : NetOp.storeHeaders ∉ first) (pairs : paired rest = true) :
    paired (first ++ rest) = true := by
  induction first with
  | nil => exact pairs
  | cons op first ih =>
    have later := ih fun member => plain (List.mem_cons_of_mem _ member)
    cases op with
    | storeHeaders => exact absurd List.mem_cons_self plain
    | _ => exact later

theorem Progress.signals_next {past : List NetOp} {s : CallState} {outcome : Option Int} {op : NetOp} {rest : List NetOp}
    (progress : Progress past s outcome (op :: rest)) (pairs : paired (op :: rest) = true) (tells : op.tells = true)
    (noData : ∀ chunk, op ≠ .onData chunk) : signals rest = true := by
  by_cases headers : op = .storeHeaders
  · subst headers
    simp only [paired, Bool.and_eq_true, decide_eq_true_eq] at pairs
    exact signals_of_head pairs.1
  · cases progress with
    | running _ _ _ _ _ _ _ _ onward =>
      cases op with
      | storeHeaders => exact absurd rfl headers
      | onData chunk => exact absurd rfl (noData chunk)
      | completeBody | storeDone => simp [closes, NetOp.opens] at onward
      | _ => cases tells
    | @finishing code message k others _ _ left teardown stored =>
      by_cases within : k < 7
      · have cases : k = 0 ∨ k = 1 ∨ k = 2 ∨ k = 3 ∨ k = 4 ∨ k = 5 ∨ k = 6 := by omega
        rcases cases with rfl | rfl | rfl | rfl | rfl | rfl | rfl <;> cases left
        · rfl
        · rfl
        · rfl
        · rfl
        · rfl
        · rfl
        · cases tells
      · have all : (finishStores code message).drop k = [] := List.drop_eq_nil_of_le (by simp [finishStores]; omega)
        rw [all, List.nil_append] at left
        rw [← left] at teardown
        have isTeardown := List.all_eq_true.mp teardown op List.mem_cons_self
        cases op with
        | storeHeaders | onData | completeBody | storeDone => cases isTeardown
        | _ => cases tells

theorem Progress.signals_of_complete {past : List NetOp} {s : CallState} {outcome : Option Int} {net : List NetOp}
    (progress : Progress past s outcome net) (complete : s.body.bodyComplete = true) (running : s.state ≠ .done) :
    signals net = true ∨ net.head? = some .completeBody := by
  cases progress with
  | running _ _ _ _ _ incomplete =>
    rw [incomplete] at complete
    cases complete
  | @finishing code message k rest _ _ left _ stored =>
    have early : ¬ 4 < k := fun far => running (stored.done.mp far)
    have cases : k = 0 ∨ k = 1 ∨ k = 2 ∨ k = 3 ∨ k = 4 := by omega
    rw [left]
    rcases cases with rfl | rfl | rfl | rfl | rfl
    · exact .inr rfl
    · exact .inl rfl
    · exact .inl rfl
    · exact .inl rfl
    · exact .inl rfl

namespace Call

def Awake (c : Call) : Prop := 0 < c.shared.completionFd ∨ signals c.net = true

def Same (c d : Call) : Prop :=
  d.shared.state = c.shared.state ∧ (c.shared.body.unread = [] → d.shared.body.unread = []) ∧
    d.shared.body.bodyComplete = c.shared.body.bodyComplete

theorem exec_same {c : Call} {op : NetOp} (quiet : op.tells = false) :
    (c.exec op).1.shared.state = c.shared.state ∧ (c.exec op).1.shared.body = c.shared.body := by
  cases op with
  | storeHeaders | onData | completeBody | storeDone => cases quiet
  | claimOutcome code message | publishUnpublished =>
    simp only [exec]
    split <;> exact ⟨rfl, rfl⟩
  | setMetrics metrics =>
    simp only [exec, CallState.setMetrics]
    split <;> exact ⟨rfl, rfl⟩
  | destroyRequest flag =>
    simp only [exec, destroyRequest, CallState.destroyRequest]
    split <;> exact ⟨rfl, rfl⟩
  | _ => exact ⟨rfl, rfl⟩

theorem exec_completionFd {c : Call} {op : NetOp} (silent : op ≠ .signalProgress) :
    (c.exec op).1.shared.completionFd = c.shared.completionFd := by
  cases op with
  | signalProgress => exact absurd rfl silent
  | claimOutcome code message | publishUnpublished =>
    simp only [exec]
    split <;> rfl
  | setMetrics metrics =>
    simp only [exec, CallState.setMetrics]
    split <;> rfl
  | destroyRequest flag =>
    simp only [exec, destroyRequest, CallState.destroyRequest]
    split <;> rfl
  | _ => rfl

theorem exec_finishes {c : Call} {op : NetOp} (finishes : op.finishes = true) : (c.exec op).2 = [] := by
  cases op with
  | publishUnpublished | storeErrorMessage | storeErrorCode | storeDone | signalFinished => rfl
  | _ => cases finishes

theorem exec_pushes_plain (c : Call) (op : NetOp) : NetOp.storeHeaders ∉ (c.exec op).2 := by
  cases op with
  | claimOutcome code message =>
    simp only [exec]
    split <;> simp [finishStores]
  | onData chunk =>
    simp only [exec]
    split <;> simp
  | _ => simp [exec]

theorem signalProgress_positive (s : CallState) : 0 < s.signalProgress.completionFd :=
  Nat.lt_min.mpr ⟨Nat.succ_pos _, by decide⟩

theorem Awake.perform {c : Call} {ops : List NetOp} (awake : 0 < c.shared.completionFd ∨ signals ops = true) :
    Awake (c.perform ops) := by
  cases ops with
  | nil => exact awake
  | cons op rest =>
    by_cases signal : op = .signalProgress
    · subst signal
      exact .inl (signalProgress_positive c.shared)
    · rcases awake with counted | next
      · exact .inl (Nat.lt_of_lt_of_eq counted (exec_completionFd signal).symm)
      · rw [signals_cons signal, Bool.and_eq_true] at next
        refine .inr ?_
        change signals ((c.exec op).2 ++ rest) = true
        rw [exec_finishes next.1]
        exact next.2

theorem Awake.step {c d : Call} {label : Label} (awake : c.Awake) (other : label ≠ .drain) (stepped : c.step label = some d) :
    d.Awake := by
  cases step_of stepped with
  | aside aside =>
    unfold Awake
    rw [aside.signals other, aside.net]
    exact awake
  | op net => exact .perform (net ▸ awake)
  | task idle | callback idle =>
    apply Awake.perform
    refine .inl (awake.resolve_right ?_)
    rw [idle]
    simp [signals]

theorem perform_tells {past : List NetOp} {c : Call} {ops : List NetOp} (progress : Progress past c.shared c.outcome ops)
    (pairs : paired ops = true) (noData : ∀ chunk, NetOp.onData chunk ∉ ops) :
    Same c (c.perform ops) ∨ Awake (c.perform ops) := by
  cases ops with
  | nil => exact .inl ⟨rfl, id, rfl⟩
  | cons op rest =>
    have notData : ∀ chunk, op ≠ .onData chunk := fun chunk same => noData chunk (by simp [same])
    cases tells : op.tells with
    | false =>
      obtain ⟨state, body⟩ := @exec_same c op tells
      exact .inl ⟨state, fun none => (congrArg Body.unread body).trans none, congrArg Body.bodyComplete body⟩
    | true =>
      refine .inr (.inr ?_)
      have pushed : (c.exec op).2 = [] := by
        cases op with
        | storeHeaders | completeBody | storeDone => rfl
        | onData chunk => exact absurd rfl (notData chunk)
        | _ => cases tells
      change signals ((c.exec op).2 ++ rest) = true
      rw [pushed]
      exact progress.signals_next pairs tells notData

structure NewsInv (c : Call) : Prop where
  paired : paired c.net = true
  inBody : c.request.phase = .body → c.shared.state ≠ .started ∨ .storeHeaders ∈ c.net
  fresh : c.shared.state = .started → c.shared.body.unread = []

theorem newsInv_initial (url : String) (maxRedirects : Int) : NewsInv (initial url maxRedirects) := by
  constructor <;> simp [initial, CallState.initial, UrlRequest.initial, Body.initial, Body.unread, Native.paired]

theorem callbackOps_paired (c : Call) (cb : Callback) : Native.paired (c.callbackOps cb).2 = true := by
  cases cb with
  | onReceivedRedirect location head =>
    simp only [callbackOps, RequestObserver.onReceivedRedirect]
    split
    · split <;> rfl
    · rfl
  | _ => rfl

theorem runTask_paired {r : UrlRequest} {metrics : Option Metrics} {ran : UrlRequest × List NetOp}
    (done : r.runTask metrics = some ran) : Native.paired ran.2 = true := by
  unfold UrlRequest.runTask at done
  split at done
  · cases done
  · dsimp only at done
    split at done <;> cases done
    · rfl
    · rfl
    · rfl
    · rename_i flag _
      cases metrics <;> cases flag <;> rfl

theorem callback_data {c : Call} {cb : Callback} {next : UrlRequest} {chunk : Bytes}
    (accepted : c.request.accepts cb = some next) (member : NetOp.onData chunk ∈ (c.callbackOps cb).2) :
    c.request.phase = .body ∧ cb = .onReadCompleted chunk := by
  cases cb with
  | onReadCompleted bytes =>
    simp only [UrlRequest.accepts, Option.ite_none_right_eq_some] at accepted
    simp only [callbackOps, RequestObserver.onReadCompleted, List.mem_singleton, NetOp.onData.injEq] at member
    exact ⟨accepted.1.1, by rw [member]⟩
  | onReceivedRedirect location head =>
    simp only [callbackOps, RequestObserver.onReceivedRedirect, RequestObserver.responseOps] at member
    split at member
    · split at member <;> simp at member
    · simp at member
  | _ => simp [callbackOps, RequestObserver.onResponseStarted, RequestObserver.responseOps, RequestObserver.onSucceeded,
      RequestObserver.onError, RequestObserver.onMetricsCollected] at member

theorem NewsInv.perform {c : Call} {ops : List NetOp} (pairs : Native.paired ops = true)
    (inBody : c.request.phase = .body → c.shared.state ≠ .started ∨ .storeHeaders ∈ ops)
    (fresh : c.shared.state = .started → c.shared.body.unread = []) (data : ∀ chunk, NetOp.onData chunk ∈ ops → c.shared.state ≠ .started) :
    NewsInv (c.perform ops) := by
  cases ops with
  | nil => exact ⟨pairs, inBody, fresh⟩
  | cons op rest =>
    refine ⟨paired_append (exec_pushes_plain c op) (paired_tail pairs), fun body => ?_, fun started => ?_⟩
    · rcases inBody ((exec_phase c op).symm.trans body) with moved | member
      · exact .inl (perform_state moved)
      · rcases List.mem_cons.mp member with rfl | later
        · exact .inl (by simp [Call.perform, exec])
        · exact .inr (List.mem_append_right _ later)
    · have was : c.shared.state = .started := by
        by_contra moved
        exact perform_state moved started
      by_cases ends : op = .completeBody
      · subst ends
        exact fresh was
      · have notData : ∀ chunk, op ≠ .onData chunk := fun chunk same => data chunk (by simp [same]) was
        exact (congrArg Body.unread (exec_body notData ends)).trans (fresh was)

theorem NewsInv.step {c d : Call} {label : Label} (news : NewsInv c) (inv : CallInv c) (stepped : c.step label = some d) :
    NewsInv d := by
  have idleBody (idle : c.net = []) (body : c.request.phase = .body) : c.shared.state ≠ .started := by
    refine (news.inBody body).resolve_right ?_
    rw [idle]
    simp
  cases step_of stepped with
  | aside aside =>
    obtain ⟨_, net, phase, _, _, _, state, _, _, _, _, _, nothing, _⟩ := aside
    refine ⟨by rw [net]; exact news.paired, ?_, fun started => nothing (news.fresh (state.symm.trans started))⟩
    rw [phase, state, net]
    exact news.inBody
  | @op op rest net =>
    refine .perform (net ▸ news.paired) (net ▸ news.inBody) news.fresh fun chunk member => ?_
    exact absurd (net ▸ member) (inv.flow.noData chunk)
  | @task metrics ran idle done =>
    have spec := task_spec done
    refine .perform (runTask_paired done) (fun body => .inl ?_) news.fresh fun chunk member => absurd member (spec.noData chunk)
    rcases spec.phase with kept | dead | ⟨_, running⟩
    · exact idleBody idle (kept.symm.trans body)
    · exact absurd (dead.symm.trans body) (by simp)
    · exact absurd (running.symm.trans body) (by simp)
  | @callback cb next idle accepted =>
    refine .perform (callbackOps_paired c cb) (fun body => ?_) news.fresh fun chunk member => ?_
    · cases cb with
      | onReceivedRedirect | onSucceeded | onError =>
        simp only [UrlRequest.accepts, Option.ite_none_right_eq_some, Option.some.injEq] at accepted
        obtain ⟨_, rfl⟩ := accepted
        cases body
      | onResponseStarted head => exact .inr (by simp [callbackOps, RequestObserver.onResponseStarted, RequestObserver.responseOps])
      | onReadCompleted chunk =>
        simp only [UrlRequest.accepts, Option.ite_none_right_eq_some] at accepted
        exact .inl (idleBody idle accepted.1.1)
      | onMetricsCollected metrics =>
        simp only [UrlRequest.accepts, Option.ite_none_left_eq_some, Option.some.injEq] at accepted
        obtain ⟨_, rfl⟩ := accepted
        exact .inl (idleBody idle body)
    · obtain ⟨inBody, _⟩ := callback_data accepted member
      exact idleBody idle inBody

theorem NewsInv.told {past : List NetOp} {c d : Call} {label : Label} (news : NewsInv c) (inv : CallInv c)
    (progress : c.InProgress past) (stepped : c.step label = some d) : Same c d ∨ d.Awake := by
  cases step_of stepped with
  | aside aside => exact .inl ⟨aside.state, aside.nothing, aside.complete⟩
  | @op op rest net =>
    exact @perform_tells past c (op :: rest) (net ▸ progress) (net ▸ news.paired) (net ▸ inv.flow.noData)
  | @task metrics ran idle done =>
    exact @perform_tells past { c with request := ran.1 } ran.2 (progress.task idle done) (runTask_paired done) (task_spec done).noData
  | @callback cb next idle accepted =>
    by_cases brings : ∃ chunk, NetOp.onData chunk ∈ (c.callbackOps cb).2
    · obtain ⟨chunk, member⟩ := brings
      obtain ⟨_, rfl⟩ := callback_data accepted member
      refine .inr (.inr (signals_of_head ?_))
      simp only [receive, callbackOps, RequestObserver.onReadCompleted, Call.perform, exec]
      split <;> rfl
    · push Not at brings
      exact @perform_tells past { c with request := next, observer := (c.callbackOps cb).1 } (c.callbackOps cb).2
        (progress.callback inv.opened idle accepted) (callbackOps_paired c cb) brings

structure Telling (c : Call) : Prop where
  inv : CallInv c
  progress : ∃ past, c.InProgress past
  news : NewsInv c

theorem telling_initial (url : String) (maxRedirects : Int) : Telling (initial url maxRedirects) :=
  ⟨callInv_initial url maxRedirects, ⟨[], inProgress_initial url maxRedirects⟩, newsInv_initial url maxRedirects⟩

theorem Telling.step {c d : Call} {label : Label} (telling : Telling c) (stepped : c.step label = some d) :
    Telling d ∧ (Same c d ∨ d.Awake) := by
  obtain ⟨inv, ⟨past, progress⟩, news⟩ := telling
  exact ⟨⟨inv.step stepped, ⟨_, inProgress_step inv progress stepped⟩, news.step inv stepped⟩,
    news.told inv progress stepped⟩

theorem Telling.run {c d : Call} {labels : List Label} (telling : Telling c) (ran : machine.run c labels = some d) :
    Telling d :=
  Machine.invariant Telling telling (fun _ _ _ telling stepped => (telling.step stepped).1) ran

theorem Telling.complete_of_done {c : Call} (telling : Telling c) (done : c.shared.state = .done) :
    c.shared.body.bodyComplete = true := by
  obtain ⟨past, progress⟩ := telling.progress
  cases progress with
  | running _ _ running => exact absurd done running
  | finishing _ _ _ _ stored =>
    have far := stored.done.mpr done
    exact stored.body (by omega)

theorem Telling.signals_of_complete {c : Call} (telling : Telling c) (complete : c.shared.body.bodyComplete = true)
    (running : c.shared.state ≠ .done) : signals c.net = true := by
  obtain ⟨past, progress⟩ := telling.progress
  refine (progress.signals_of_complete complete running).resolve_right fun next => ?_
  exact telling.inv.outcome.once complete (List.mem_of_head? next)

end Call

end Cronet.Native
