import Cronet.Native.Publishing

namespace Cronet.Native

/-- The value of a state in `cronet.h`. -/
def CallProgress.value : CallProgress → Nat
  | .started => 0
  | .headers => 1
  | .done => 2

namespace CallState

/-- `CallState::Wait`, entered in `s` and returning in `t`: it returns at once where `s` is
    finished or it may not wait, else with the event or, given a limit, without it. -/
def waitReturns (s t : CallState) (timeoutMs : Int) (result : Bool) : Bool :=
  if s.state = .done then result
  else if timeoutMs = 0 then !result
  else if timeoutMs < 0 then result && t.finished
  else result == t.finished

def writesView (s : CallState) : NetOp → Bool
  | .onRedirect _ | .onResponse _ | .setRedirectCount _ | .storeErrorMessage _ | .storeErrorCode _ => true
  | .publishUnpublished => !s.headersPublished
  | .setMetrics _ => s.state ≠ .done
  | _ => false

end CallState

namespace Call

theorem exec_unwritten (c : Call) {op : NetOp} (quiet : c.shared.writesView op = false) :
    (c.exec op).1.shared.response = c.shared.response := by
  cases op with
  | onRedirect | onResponse | setRedirectCount | storeErrorMessage | storeErrorCode => cases quiet
  | publishUnpublished =>
    have published : c.shared.headersPublished = true := by simpa [CallState.writesView] using quiet
    simp only [exec, published, if_true]
  | setMetrics metrics =>
    have done : c.shared.state = .done := by simpa [CallState.writesView] using quiet
    simp only [exec, CallState.setMetrics, done, if_true]
  | claimOutcome code message =>
    simp only [exec]
    split <;> rfl
  | destroyRequest flag => simp [exec, destroyRequest]
  | _ => rfl

theorem exec_state_value (c : Call) {op : NetOp} (early : op = .storeHeaders → c.shared.state ≠ .done) :
    c.shared.state.value ≤ (c.exec op).1.shared.state.value := by
  cases op with
  | storeHeaders =>
    cases state : c.shared.state with
    | done => exact absurd state (early rfl)
    | started | headers => simp [exec, CallProgress.value]
  | storeDone => cases state : c.shared.state <;> simp [exec, CallProgress.value]
  | claimOutcome code message | publishUnpublished =>
    simp only [exec]
    split <;> exact Nat.le_refl _
  | setMetrics metrics =>
    simp only [exec, CallState.setMetrics]
    split <;> exact Nat.le_refl _
  | destroyRequest flag =>
    simp only [exec, destroyRequest, CallState.destroyRequest]
    split <;> exact Nat.le_refl _
  | _ => exact Nat.le_refl _

end Call

theorem CallProgress.done_of_value {s : CallProgress} (far : CallProgress.done.value ≤ s.value) : s = .done := by
  cases s with
  | done => rfl
  | started | headers => simp [value] at far

theorem Progress.left_of_done {past : List NetOp} {s : CallState} {outcome : Option Int} {net : List NetOp}
    (progress : Progress past s outcome net) (done : s.state = .done) :
    ∀ op ∈ net, op = .signalFinished ∨ op = .signalProgress ∨ op.teardown = true := by
  cases progress with
  | running _ _ running => exact absurd done running
  | @finishing code message k rest _ _ left teardown stored =>
    have far : 4 < k := stored.done.mpr done
    intro op member
    rw [left] at member
    rcases List.mem_append.mp member with store | later
    · have signals : op ∈ (finishStores code message).drop 5 := by
        rw [show k = 5 + (k - 5) by omega, ← List.drop_drop] at store
        exact List.mem_of_mem_drop store
      simp only [finishStores, List.drop, List.mem_cons, List.not_mem_nil, or_false] at signals
      exact signals.imp_right Or.inl
    · exact .inr (.inr (List.all_eq_true.mp teardown op later))

theorem Progress.unwritten {past : List NetOp} {s : CallState} {outcome : Option Int} {net : List NetOp}
    (progress : Progress past s outcome net) (done : s.state = .done) : ∀ op ∈ net, s.writesView op = false := by
  intro op member
  rcases progress.left_of_done done op member with rfl | rfl | teardown
  · rfl
  · rfl
  · cases op with
    | setMetrics metrics => simp [CallState.writesView, done]
    | claimOutcome | destroyRequest | unregisterCall | clearRequest | signalReleased => rfl
    | _ => cases teardown

theorem Progress.ascends {past : List NetOp} {b : Call} {ops : List NetOp} (progress : Progress past b.shared b.outcome ops) :
    b.shared.state.value ≤ (b.perform ops).shared.state.value := by
  cases ops with
  | nil => exact Nat.le_refl _
  | cons op rest =>
    refine b.exec_state_value fun headers done => ?_
    subst headers
    rcases progress.left_of_done done .storeHeaders (by simp) with same | same | teardown
    · cases same
    · cases same
    · cases teardown

namespace Call

/-- The call a step's operations are performed on, and the operations: a step beside the network thread has none. -/
theorem perform_of_step {past : List NetOp} {c d : Call} {label : Label} (inv : CallInv c) (progress : c.InProgress past)
    (stepped : c.step label = some d) :
    Aside c label d ∨ ∃ (b : Call) (ops : List NetOp), b.shared = c.shared ∧ Progress past b.shared b.outcome ops ∧
      c.performed label = ops.take 1 ∧ d = b.perform ops := by
  cases step_of stepped with
  | aside aside => exact .inl aside
  | @op op rest net => exact .inr ⟨c, op :: rest, rfl, net ▸ progress, by rw [performed, ops, net], rfl⟩
  | @task metrics ran idle done =>
    exact .inr ⟨{ c with request := ran.1 }, ran.2, rfl, progress.task idle done, by rw [performed, ops, done]; rfl, rfl⟩
  | @callback cb next idle accepted =>
    exact .inr ⟨{ c with request := next, observer := (c.callbackOps cb).1 }, (c.callbackOps cb).2, rfl,
      progress.callback inv.opened idle accepted, rfl, rfl⟩

theorem state_ascends {past : List NetOp} {c d : Call} {label : Label} (inv : CallInv c) (progress : c.InProgress past)
    (stepped : c.step label = some d) : c.shared.state.value ≤ d.shared.state.value := by
  rcases perform_of_step inv progress stepped with aside | ⟨b, ops, shared, entered, _, rfl⟩
  · exact Nat.le_of_eq (congrArg CallProgress.value aside.state).symm
  · rw [← shared]
    exact entered.ascends

theorem done_step {past : List NetOp} {c d : Call} {label : Label} (inv : CallInv c) (progress : c.InProgress past)
    (done : c.shared.state = .done) (stepped : c.step label = some d) :
    d.shared.state = .done ∧ d.shared.response = c.shared.response ∧
      ∀ op ∈ c.performed label, c.shared.writesView op = false := by
  refine ⟨CallProgress.done_of_value (done ▸ state_ascends inv progress stepped), ?_⟩
  rcases perform_of_step inv progress stepped with aside | ⟨b, ops, shared, entered, performs, rfl⟩
  · refine ⟨aside.response, ?_⟩
    rw [aside.silent]
    simp
  · rw [← shared] at done ⊢
    have quiet := entered.unwritten done
    cases ops with
    | nil =>
      rw [performs]
      exact ⟨rfl, by simp⟩
    | cons op rest =>
      have first := quiet op (by simp)
      rw [performs]
      exact ⟨b.exec_unwritten first, by simpa using first⟩

theorem ascends_run {url : String} {maxRedirects : Int} {labels later : List Label} {c d : Call}
    (ran : machine.run (initial url maxRedirects) labels = some c) (ranOn : machine.run c later = some d) :
    c.shared.state.value ≤ d.shared.state.value := by
  refine Machine.history_invariant (fun _ d => c.shared.state.value ≤ d.shared.state.value) (Nat.le_refl _) ?_ ranOn
  intro more a label b before held stepped
  obtain ⟨inv, progress⟩ := inProgress_of_run (Machine.run_append.mpr ⟨c, ran, before⟩)
  exact Nat.le_trans held (state_ascends inv progress stepped)

theorem done_run {url : String} {maxRedirects : Int} {labels later : List Label} {c d : Call}
    (ran : machine.run (initial url maxRedirects) labels = some c) (done : c.shared.state = .done)
    (ranOn : machine.run c later = some d) : d.shared.state = .done ∧ d.shared.response = c.shared.response := by
  refine Machine.history_invariant (fun _ d => d.shared.state = .done ∧ d.shared.response = c.shared.response)
    ⟨done, rfl⟩ ?_ ranOn
  intro more a label b before held stepped
  obtain ⟨inv, progress⟩ := inProgress_of_run (Machine.run_append.mpr ⟨c, ran, before⟩)
  obtain ⟨stays, same, _⟩ := done_step inv progress held.1 stepped
  exact ⟨stays, same.trans held.2⟩

/-- The outcomes that reached `Finish`, and the codes and messages it stored. -/
structure Recording (past : List NetOp) (s : CallState) : Prop where
  once : (past.filterMap NetOp.codeStored).length ≤ 1 ∧ (past.filterMap NetOp.messageStored).length ≤ 1
  first : s.state = .done → ∃ code message, (past.filterMap NetOp.claim).head? = some (code, message) ∧
    past.filterMap NetOp.codeStored = [code] ∧ past.filterMap NetOp.messageStored = [message] ∧
    s.response.view.errorCode = code ∧ s.response.view.errorMessage = some message
  released : s.released = true → s.state = .done
  finished : s.finished = true → s.state = .done

theorem InProgress.recording {past : List NetOp} {c : Call} (progress : c.InProgress past) : Recording past c.shared := by
  cases progress with
  | running _ _ running unfinished unreleased _ _ fresh =>
    have none {α : Type} {kind : NetOp → Option α} (outside : ∀ op ∈ past, kind op = none) : past.filterMap kind = [] :=
      List.filterMap_eq_nil_iff.mpr outside
    have codes := none fun op member => (fresh op member).2.2
    have messages := none fun op member => (fresh op member).2.1
    exact ⟨by simp [codes, messages], fun done => absurd done running, by simp [unreleased], by simp [unfinished]⟩
  | @finishing code message k rest _ _ _ _ stored history =>
    refine ⟨⟨?_, ?_⟩, fun done => ?_, fun out => stored.done.mp ?_, fun out => stored.done.mp ?_⟩
    · rw [history.codes]
      split <;> simp
    · rw [history.messages]
      split <;> simp
    · have far := stored.done.mpr done
      refine ⟨code, message, history.first, ?_, ?_, stored.code (by omega), stored.message (by omega)⟩
      · rw [history.codes, if_pos (by omega)]
      · rw [history.messages, if_pos (by omega)]
    · exact Nat.lt_trans (by decide) (stored.released out)
    · exact Nat.lt_trans (by decide) (stored.finished.mpr out)

/-- However a call ends, it ends once, and what its owner may read is there and final. -/
theorem finishes_once (url : String) (maxRedirects : Int) (labels : List Label) (c : Call)
    (ran : machine.run (initial url maxRedirects) labels = some c) :
    (∀ later d, machine.run c later = some d → c.shared.state.value ≤ d.shared.state.value) ∧
    Recording (machine.outputs performed (initial url maxRedirects) labels) c.shared ∧
    (c.shared.state = .done → ∀ later d label e, machine.run c later = some d → d.step label = some e →
      e.shared.response = c.shared.response ∧ ∀ op ∈ d.performed label, d.shared.writesView op = false) ∧
    (∀ later d timeoutMs, machine.run c later = some d → c.shared.waitReturns d.shared timeoutMs true = true →
      d.shared.state = .done) ∧
    (c.shared.responsePointer.isSome = true ↔ c.shared.state ≠ .started) ∧
    (∀ view, c.shared.responsePointer = some view →
      view.statusText.isSome = true ∧ view.negotiatedProtocol.isSome = true ∧ view.proxyServer.isSome = true ∧
        view.finalUrl.isSome = true ∧ view.headers = c.shared.response.headerPairs ∧
        (c.shared.state = .done → view.errorMessage.isSome = true)) := by
  obtain ⟨inv, progress, responding⟩ := responding_of_run ran
  refine ⟨fun later d ranOn => ascends_run ran ranOn, progress.recording, ?_, ?_, ?_, ?_⟩
  · intro done later d label e ranOn stepped
    obtain ⟨stays, same⟩ := done_run ran done ranOn
    obtain ⟨invOn, progressOn⟩ := inProgress_of_run (Machine.run_append.mpr ⟨c, ran, ranOn⟩)
    obtain ⟨_, next, unwritten⟩ := done_step invOn progressOn stays stepped
    exact ⟨next.trans same, unwritten⟩
  · intro later d timeoutMs ranOn returns
    obtain ⟨_, progressOn⟩ := inProgress_of_run (Machine.run_append.mpr ⟨c, ran, ranOn⟩)
    unfold CallState.waitReturns at returns
    split at returns
    · exact (done_run ran ‹_› ranOn).1
    · split at returns
      · cases returns
      · split at returns <;> exact progressOn.recording.finished (by simpa using returns)
  · unfold CallState.responsePointer
    split <;> simp_all
  · intro view readable
    unfold CallState.responsePointer at readable
    split at readable
    · cases readable
    · cases readable
      have strings := (responding.published (responding.published_of_readable progress ‹_›)).1
      refine ⟨by rw [strings.statusText]; rfl, by rw [strings.negotiatedProtocol]; rfl, by rw [strings.proxyServer]; rfl,
        by rw [strings.finalUrl]; rfl, strings.headers, fun done => ?_⟩
      obtain ⟨_, message, _, _, _, _, stored⟩ := progress.recording.first done
      rw [stored]
      rfl

theorem finishes_once_cancelled :
    ∃ labels c, machine.run (initial "http://a/" 20) labels = some c ∧ c.shared.released = true ∧ c.shared.state = .done := by
  have ran : ∃ c, machine.run (initial "http://a/" 20) [.registerCall true, .construct, .attachRequest, .start,
      .cancel .handle, .task none, .task none, .op, .op, .op, .op, .op, .op, .op, .op, .op, .op, .op] = some c ∧
      c.shared.released = true := ⟨_, rfl, rfl⟩
  obtain ⟨c, ran, released⟩ := ran
  exact ⟨_, c, ran, released, (finishes_once "http://a/" 20 _ c ran).2.1.released released⟩

/-- At the headers the error message is not there yet. -/
theorem message_unpublished_at_headers :
    ∃ labels c view, machine.run (initial "http://a/" 20) labels = some c ∧ c.shared.state = .headers ∧
      c.shared.responsePointer = some view ∧ view.errorMessage = none :=
  ⟨[.registerCall true, .construct, .attachRequest, .start, .task none,
    .callback (.onResponseStarted ⟨200, "OK", none, false, "h2", ""⟩), .op], _, _, rfl, rfl, rfl, rfl⟩

end Call

end Cronet.Native
