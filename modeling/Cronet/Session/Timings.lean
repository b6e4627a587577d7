import Cronet.Native.Progress
import Cronet.Session.Owner

namespace Cronet.Native

inductive Moment where
  | requestStart
  | dnsStart
  | dnsEnd
  | connectStart
  | connectEnd
  | sslStart
  | sslEnd
  | sendStart
  | sendEnd
  | responseStart
  | requestEnd
  deriving DecidableEq

namespace Metrics

def time (m : Metrics) : Moment → Int
  | .requestStart => m.requestStartUs
  | .dnsStart => m.dnsStartUs
  | .dnsEnd => m.dnsEndUs
  | .connectStart => m.connectStartUs
  | .connectEnd => m.connectEndUs
  | .sslStart => m.sslStartUs
  | .sslEnd => m.sslEndUs
  | .sendStart => m.sendStartUs
  | .sendEnd => m.sendEndUs
  | .responseStart => m.responseStartUs
  | .requestEnd => m.requestEndUs

def totalUs (m : Metrics) : Int :=
  if m.requestStartUs = CRONET_NO_TIME ∨ m.requestEndUs = CRONET_NO_TIME then CRONET_NO_TIME
  else m.requestEndUs - m.requestStartUs

end Metrics

def NetOp.reported : NetOp → List Metrics
  | .setMetrics metrics => [metrics]
  | _ => []

namespace Call

def metrics (c : Call) : Metrics := c.shared.response.view.metrics

def reports (c : Call) (label : Label) : List Metrics := (c.performed label).flatMap NetOp.reported

/-- The metrics that are recorded in a step: those of a call that is done are dropped. -/
def records (c : Call) (label : Label) : List Metrics := if c.shared.state = .done then [] else c.reports label

variable {c d : Call} {label : Label}

theorem exec_metrics (c : Call) (op : NetOp) :
    (c.exec op).1.metrics = ((if c.shared.state = .done then [] else op.reported).getLast?).getD c.metrics := by
  have plain : op.reported = [] → ((if c.shared.state = .done then [] else op.reported).getLast?).getD c.metrics = c.metrics := by
    intro none
    rw [none, ite_self]
    rfl
  cases op with
  | setMetrics metrics =>
    simp only [exec, Call.metrics, CallState.setMetrics]
    split <;> rfl
  | claimOutcome code message | publishUnpublished =>
    rw [plain rfl]
    simp only [exec]
    split <;> rfl
  | destroyRequest flag =>
    rw [plain rfl]
    simp [exec, Call.metrics, destroyRequest]
  | _ =>
    rw [plain rfl]
    rfl

theorem perform_metrics (c : Call) (ops : List NetOp) :
    (c.perform ops).metrics =
      ((if c.shared.state = .done then [] else (ops.take 1).flatMap NetOp.reported).getLast?).getD c.metrics := by
  cases ops with
  | nil =>
    rw [List.take_nil, List.flatMap_nil, ite_self]
    rfl
  | cons op rest =>
    rw [List.take_succ_cons, List.take_zero, List.flatMap_singleton]
    exact exec_metrics c op

theorem step_metrics (stepped : c.step label = some d) : d.metrics = ((c.records label).getLast?).getD c.metrics := by
  cases step_of stepped with
  | aside aside =>
    rw [records, reports, aside.silent, List.flatMap_nil, ite_self]
    exact congrArg (fun r => r.view.metrics) aside.response
  | @op op rest net =>
    rw [records, reports, performed, ops, net]
    exact perform_metrics c _
  | @task metrics ran idle done =>
    rw [records, reports, performed, ops, done]
    exact perform_metrics { c with request := ran.1 } ran.2
  | @callback cb next idle accepted => exact perform_metrics { c with request := next, observer := (c.callbackOps cb).1 } _

theorem run_metrics {labels : List Label} (ran : machine.run c labels = some d)
    (silent : ∀ label ∈ labels, ∀ c : Call, c.performed label = []) : d.metrics = c.metrics := by
  induction labels generalizing c with
  | nil =>
    cases ran
    rfl
  | cons label labels ih =>
    obtain ⟨b, stepped, rest⟩ := Machine.run_cons.mp ran
    rw [ih rest fun later member => silent later (List.mem_cons_of_mem label member), step_metrics stepped, records,
      reports, silent label List.mem_cons_self, List.flatMap_nil, ite_self]
    rfl

theorem mem_reports_of_records {m : Metrics} (member : m ∈ c.records label) : m ∈ c.reports label := by
  unfold records at member
  split at member
  · cases member
  · exact member

end Call

end Cronet.Native

namespace Cronet.Session

open Cronet.Native (Bytes Call CRONET_NO_TIME Label Metrics Moment)

/-- `elapsed`, before it is rounded to a float. -/
def Response.elapsed (response : Response) : Rat :=
  if response.metrics.totalUs = CRONET_NO_TIME then -1 else response.metrics.totalUs / 1000000

theorem readResponse_metrics {pointer : Option Native.ResponseView} {url : String} {raw : RawResponse}
    (ok : readResponse pointer url = .ok raw) : ∃ view, pointer = some view ∧ raw.metrics = view.metrics := by
  unfold readResponse at ok
  split at ok
  · cases ok
  · rename_i view
    split at ok
    · cases ok
    · cases ok
      exact ⟨view, rfl, rfl⟩

namespace Owned

def reports (s : Owned) : OwnedLabel → List Metrics
  | .env label => s.call.reports label
  | .owner _ => []

def records (s : Owned) : OwnedLabel → List Metrics
  | .env label => s.call.records label
  | .owner _ => []

/-- The response a step hands to the caller, copied in that step: a stream's at its headers, any
    other at its end. An exception that has a response hands it over too. -/
def copies (s : Owned) : OwnedLabel → List Response
  | .owner .proceed =>
    match s.owner.pc with
    | .result =>
      if s.owner.kind = .stream then
        (handed (s.response.bind fun raw => checked s.owner.requireHttp3 (.fromRaw raw []))).toList
      else []
    | .final =>
      match s.concluded with
      | .returned response => [response]
      | .raised (.cronet e) => e.response?.toList
      | _ => []
    | _ => []
  | _ => []

/-- What the times of a response say, given what Cronet has reported and what has been recorded. -/
structure Timed (reported recorded : List Metrics) (response : Response) : Prop where
  times : ∀ moment, response.metrics.time moment = CRONET_NO_TIME ∨
    ∃ m ∈ reported, response.metrics.time moment = m.time moment
  unrecorded : recorded = [] → response.metrics.totalUs = CRONET_NO_TIME ∧ response.elapsed = -1

def TimesResponses (start : Owned) (labels : List OwnedLabel) : Prop :=
  ∀ past label later s, labels = past ++ label :: later → machine.run start past = some s → ∀ response ∈ s.copies label,
    Timed (machine.outputs reports start past) (machine.outputs records start past) response

/-- Every response handed over in the run is copied when metrics have been recorded. -/
def CopiesLate (start : Owned) (labels : List OwnedLabel) : Prop :=
  ∀ past label later s, labels = past ++ label :: later → machine.run start past = some s → s.copies label ≠ [] →
    machine.outputs records start past ≠ []

variable {s t start : Owned} {label : OwnedLabel} {labels : List OwnedLabel}

theorem handed_metrics {content : Bytes} {response : Response}
    (given : handed (s.response.bind fun raw => checked s.owner.requireHttp3 (.fromRaw raw content)) = some response) :
    response.metrics = s.call.metrics := by
  cases read : s.response with
  | error e =>
    rw [read] at given
    cases (readResponse_error read).symm.trans given
  | ok raw =>
    rw [read] at given
    cases (checked_handed s.owner.requireHttp3 (.fromRaw raw content)).symm.trans given
    obtain ⟨view, pointer, same⟩ := readResponse_metrics read
    rw [Response.fromRaw, same]
    unfold Native.CallState.responsePointer at pointer
    split at pointer
    · cases pointer
    · cases pointer
      rfl

theorem mem_concluded {response : Response} (member : response ∈ s.copies (.owner .proceed)) (final : s.owner.pc = .final) :
    handed (s.response.bind fun raw => checked s.owner.requireHttp3 (.fromRaw raw s.owner.pieces.flatten)) = some response := by
  rw [copies, final, concluded] at member
  cases read : s.response with
  | error e =>
    rw [read] at member
    exact Option.mem_toList.mp member
  | ok raw =>
    rw [read] at member
    change handed (checked s.owner.requireHttp3 (.fromRaw raw s.owner.pieces.flatten)) = some response
    dsimp only at member
    cases accepted : checked s.owner.requireHttp3 (.fromRaw raw s.owner.pieces.flatten) with
    | error e =>
      rw [accepted] at member
      exact Option.mem_toList.mp member
    | ok passed =>
      rw [accepted] at member
      exact congrArg some (List.mem_singleton.mp member).symm

theorem copies_metrics {response : Response} (member : response ∈ s.copies label) :
    response.metrics = s.call.metrics := by
  have given := member
  unfold copies at member
  split at member
  · split at member
    · split at member
      · exact handed_metrics (Option.mem_toList.mp member)
      · cases member
    · rename_i final
      exact handed_metrics (mem_concluded given final)
    · cases member
  · cases member

theorem uses_silent {act : Act} : ∀ label ∈ s.uses act, ∀ c : Call, c.performed label = [] := by
  have silent : ∀ label, label = .drain ∨ label = .cancel .handle ∨ (∃ capacity ret, label = .read capacity ret) →
      ∀ c : Call, c.performed label = [] := by
    rintro label (rfl | rfl | ⟨capacity, ret, rfl⟩) c <;> rfl
  intro label member
  apply silent
  unfold uses at member
  split at member
  · split at member <;> try split at member
    all_goals simp_all
  · cases member

theorem step_metrics (stepped : s.step label = some t) :
    t.call.metrics = ((s.records label).getLast?).getD s.call.metrics := by
  cases label with
  | env label =>
    simp only [step, Option.ite_none_right_eq_some, Option.map_eq_some_iff] at stepped
    obtain ⟨_, call, moved, rfl⟩ := stepped
    exact Call.step_metrics moved
  | owner act =>
    simp only [step, Option.ite_none_right_eq_some] at stepped
    exact Call.run_metrics (act_spec stepped.2).played uses_silent

theorem getLast?_append_getD {α : Type} (first second : List α) (a : α) :
    ((first ++ second).getLast?).getD a = (second.getLast?).getD ((first.getLast?).getD a) := by
  rw [List.getLast?_append]
  cases second.getLast? <;> rfl

theorem run_metrics (ran : machine.run start labels = some s) :
    s.call.metrics = ((machine.outputs records start labels).getLast?).getD start.call.metrics := by
  refine Machine.output_invariant (fun past a => a.call.metrics = (past.getLast?).getD start.call.metrics) rfl ?_ ran
  intro past a label b before stepped
  rw [getLast?_append_getD, ← before]
  exact step_metrics stepped

theorem reports_of_records {m : Metrics} (member : m ∈ s.records label) : m ∈ s.reports label := by
  cases label with
  | env label => exact Call.mem_reports_of_records member
  | owner act => cases member

theorem run_reports {m : Metrics} (ran : machine.run start labels = some s)
    (member : m ∈ machine.outputs records start labels) : m ∈ machine.outputs reports start labels := by
  refine Machine.history_invariant (fun past _ => m ∈ machine.outputs records start past → m ∈ machine.outputs reports start past)
    id ?_ ran member
  intro past a label b before held stepped recorded
  rw [Machine.outputs_snoc label before, List.mem_append] at recorded ⊢
  exact recorded.imp held reports_of_records

/-- The times of a run's responses are the ones Cronet reported, or none, exactly if every response is
    copied once metrics have been recorded. -/
theorem times_responses_iff (url seconds : String) (maxRedirects timeoutMs : Int) (kind : Kind) (requireHttp3 : Bool)
    (labels : List OwnedLabel) :
    TimesResponses (initial url maxRedirects kind seconds timeoutMs requireHttp3) labels ↔
      CopiesLate (initial url maxRedirects kind seconds timeoutMs requireHttp3) labels := by
  constructor
  · intro timed past label later s split ran copied unrecorded
    obtain ⟨response, rest, handed⟩ := List.exists_cons_of_ne_nil copied
    have member : response ∈ s.copies label := handed ▸ List.mem_cons_self
    have total := ((timed past label later s split ran response member).unrecorded unrecorded).1
    rw [copies_metrics member, run_metrics ran, unrecorded] at total
    cases total
  · intro late past label later s split ran response member
    have recorded := late past label later s split ran (List.ne_nil_of_mem member)
    refine ⟨fun moment => ?_, fun unrecorded => absurd unrecorded recorded⟩
    have last := List.getLast?_eq_some_getLast recorded
    refine .inr ⟨_, run_reports ran (List.getLast_mem recorded), ?_⟩
    rw [copies_metrics member, run_metrics ran, last]
    rfl

/-- A redirect that was asked for unfollowed comes back before Cronet tells its times, which are then
    all zero. -/
theorem redirect_untimed :
    ∃ past s response, machine.run (initial "http://a/" 0 .request "30.0" 30000 false) past = some s ∧
      response ∈ s.copies (.owner .proceed) ∧ response.metrics = .zero ∧ response.metrics.totalUs = 0 ∧
      ¬TimesResponses (initial "http://a/" 0 .request "30.0" 30000 false) (past ++ [.owner .proceed]) := by
  let found : Native.ResponseHead := ⟨302, "Found", some [("location", "/b")], false, "h2", ""⟩
  let past : List OwnedLabel := [.env (.registerCall true), .env .construct, .env .attachRequest, .env .start,
    .env (.task none), .env (.callback (.onReceivedRedirect "http://a/b" found)), .env .op, .env .op, .env .op, .env .op,
    .env .op, .env .op, .env .op, .env .op, .env .op, .env .op, .env .op, .env .op,
    .env (.task (some ⟨1, 1, 1, 1, 1, 1, 1, 1, 1, 1, 2, 0, 0, false⟩)), .owner .proceed, .owner .proceed, .owner .proceed,
    .owner .proceed, .owner .proceed, .owner .proceed, .owner .proceed]
  have copied : (machine.run (initial "http://a/" 0 .request "30.0" 30000 false) past).map
      (fun s => (s.copies (.owner .proceed)).map (·.metrics)) = some [.zero] := by decide
  have unrecorded : machine.outputs records (initial "http://a/" 0 .request "30.0" 30000 false) past = [] := by decide
  obtain ⟨s, ran, handed⟩ := Option.map_eq_some_iff.mp copied
  obtain ⟨response, member, zero⟩ := List.mem_map.mp (handed ▸ List.mem_cons_self)
  refine ⟨past, s, response, ran, member, zero, by rw [zero]; rfl, fun timed => ?_⟩
  have total := ((timed past _ [] s rfl ran response member).unrecorded unrecorded).1
  rw [zero] at total
  cases total

end Owned

end Cronet.Session
