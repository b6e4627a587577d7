import Cronet.Session.Reading

namespace Cronet.Session

open Cronet.Native (Bytes)

namespace Owned

/-- What iterating a streamed body promises: an end without an exception only after a success
    and with every byte, and otherwise an error of the package's own. -/
def StreamContract (s : Owned) (delivered : Bytes) : Prop :=
  match s.owner.pc.result? with
  | some .exhausted => s.call.outcome = some 0 ∧ s.owner.pieces.flatten = delivered
  | some (.raised e) => e.isCronetError = true
  | _ => True

def InTime (s : Owned) (label : OwnedLabel) : Prop := ¬ (s.iterating ∧ label = .owner .expire)

variable {url seconds : String} {maxRedirects timeoutMs : Int} {requireHttp3 : Bool} {labels : List OwnedLabel}
  {s t : Owned}

theorem step_result {label : OwnedLabel} {r : Result} (stepped : s.step label = some t)
    (settled : s.owner.pc.result? = some r) : t.owner.pc.result? = some r := by
  cases label with
  | env label =>
    simp only [step, Option.ite_none_right_eq_some, Option.map_eq_some_iff] at stepped
    obtain ⟨_, call, _, rfl⟩ := stepped
    exact settled
  | owner act =>
    simp only [step, Option.ite_none_right_eq_some] at stepped
    exact act_settled stepped.2 settled

theorem raises_iff_late {label : OwnedLabel} (inv : OwnedInv s) (stream : s.owner.kind = .stream)
    (stepped : s.step label = some t) (working : ∀ e, s.owner.pc.result? ≠ some (.raised e)) :
    (∃ e, t.owner.pc.result? = some (.raised e)) ↔ ¬ InTime s label := by
  cases label with
  | env label =>
    simp only [step, Option.ite_none_right_eq_some, Option.map_eq_some_iff] at stepped
    obtain ⟨_, call, _, rfl⟩ := stepped
    simp [InTime, working]
  | owner act =>
    simp only [step, Option.ite_none_right_eq_some] at stepped
    have acted := stepped.2
    cases result : s.owner.pc.result? with
    | some r =>
      have kept := act_settled acted result
      have early : ¬ s.iterating := by
        rintro ⟨turn, body⟩
        simp [body, Pc.result?] at result
      simp only [kept, InTime, early, false_and, not_false_eq_true, not_true_eq_false, iff_false, not_exists]
      exact fun e same => working e (result.trans same)
    | none =>
      constructor
      · rintro ⟨e, raised⟩
        cases act_settles acted result with
        | goesOn isOpen _ _ => simp [isOpen] at raised
        | final _ _ _ same => simp [same, Pc.result?] at raised
        | exhausted _ _ _ settled | notOpened _ settled | abandoned _ settled => simp [settled] at raised
        | timedOut _ expires iterating _ => exact fun inTime => inTime ⟨iterating, by rw [expires]⟩
        | raised request _ => exact absurd stream request
        | concluded last _ _ => exact absurd stream (inv.final last).1
      · intro late
        obtain ⟨⟨turn, body⟩, same⟩ := not_not.mp late
        cases same
        have timedOut := expire_body acted body
        exact ⟨.timeoutError, by rw [timedOut, Owner.bodyTimedOut, stream]; exact settle_result _ _⟩

/-- Of a stream in any state it reaches: it has raised if and only if time ran out while its
    body was iterated. -/
theorem raised_iff_late
    (ran : machine.run (initial url maxRedirects .stream seconds timeoutMs requireHttp3) labels = some s) :
    (∃ e, s.owner.pc.result? = some (.raised e)) ↔
      ¬ machine.Meets InTime (initial url maxRedirects .stream seconds timeoutMs requireHttp3) labels := by
  refine Machine.history_invariant (fun past a => (∃ e, a.owner.pc.result? = some (.raised e)) ↔
    ¬ machine.Meets InTime (initial url maxRedirects .stream seconds timeoutMs requireHttp3) past) ?_ ?_ ran
  · simp [initial, Pc.result?, Machine.Meets]
  · intro past a label b before held stepped
    rw [Machine.meets_snoc before, not_and_or]
    by_cases raised : ∃ e, a.owner.pc.result? = some (.raised e)
    · obtain ⟨e, settled⟩ := raised
      exact iff_of_true ⟨e, step_result stepped settled⟩ (.inl (held.mp ⟨e, settled⟩))
    · have working : ∀ e, a.owner.pc.result? ≠ some (.raised e) := not_exists.mp raised
      rw [raises_iff_late (ownedInv_of_run before) (kind_of_run before) stepped working, ← held]
      simp [raised]

/-- Iterating a stream keeps its promise when the outcome is a success and time does not run
    out, and only then. -/
theorem stream_contract_iff (url seconds : String) (maxRedirects timeoutMs : Int) (requireHttp3 : Bool)
    (labels : List OwnedLabel) (s : Owned)
    (ran : machine.run (initial url maxRedirects .stream seconds timeoutMs requireHttp3) labels = some s)
    (settledRead : s.owner.pc.result? = some .exhausted ∨ ∃ e, s.owner.pc.result? = some (.raised e)) :
    StreamContract s (labels.flatMap OwnedLabel.brings) ↔
      s.call.outcome = some 0 ∧
        machine.Meets InTime (initial url maxRedirects .stream seconds timeoutMs requireHttp3) labels := by
  have inv := ownedInv_of_run ran
  have late := raised_iff_late ran
  rcases settledRead with exhausted | ⟨e, raised⟩
  · have inTime : machine.Meets InTime (initial url maxRedirects .stream seconds timeoutMs requireHttp3) labels := by
      by_contra lost
      obtain ⟨e, raised⟩ := late.mpr lost
      simp [exhausted] at raised
    have whole : s.owner.pieces.flatten = labels.flatMap OwnedLabel.brings := by
      rw [← read_conserves ran, (inv.exhausted exhausted).2.2, List.append_nil]
    simp [StreamContract, exhausted, inTime, whole]
  · have lost := late.mp ⟨e, raised⟩
    have timeout := inv.stream (kind_of_run ran) e raised
    simp [StreamContract, raised, timeout, PyError.isCronetError, lost]

theorem stream_contract_success :
    ∃ labels s, machine.run (initial "http://a/" 20 .stream "30.0" 30000 false) labels = some s ∧
      StreamContract s [1, 2] := by
  let labels : List OwnedLabel := [.env (.registerCall true), .env .construct, .env .attachRequest, .env .start,
    .env (.task none), .env (.callback (.onResponseStarted ⟨200, "OK", none, false, "h2", ""⟩)), .env .op, .env .op,
    .env .op, .env .op, .env (.task none), .env (.callback (.onReadCompleted [1, 2])), .env .op, .env .op,
    .env (.task none), .env (.callback .onSucceeded), .env .op, .owner .proceed, .owner .proceed, .owner .proceed,
    .owner .proceed, .owner .proceed, .owner .proceed, .owner .proceed, .owner .proceed]
  have inTime : machine.Meets InTime (initial "http://a/" 20 .stream "30.0" 30000 false) labels := by
    simp [labels, Machine.Meets, InTime]
  exact ⟨labels, _, rfl, (stream_contract_iff "http://a/" "30.0" 20 30000 false labels _ rfl (.inl rfl)).mpr
    ⟨rfl, inTime⟩⟩

/-- The connection is reset after the first two bytes, and the iteration ends as if they were all. -/
theorem stream_truncated :
    ∃ labels s, machine.run (initial "http://a/" 20 .stream "30.0" 30000 false) labels = some s ∧
      s.owner.pc.result? = some .exhausted ∧ s.call.outcome = some (-101) ∧
      ¬ StreamContract s (labels.flatMap OwnedLabel.brings) := by
  let labels : List OwnedLabel := [.env (.registerCall true), .env .construct, .env .attachRequest, .env .start,
    .env (.task none), .env (.callback (.onResponseStarted ⟨200, "OK", none, false, "h2", ""⟩)), .env .op, .env .op,
    .env .op, .env .op, .owner .proceed, .owner .proceed, .owner .proceed, .owner .proceed, .env (.task none),
    .env (.callback (.onReadCompleted [1, 2])), .env .op, .env .op,
    .env (.callback (.onError (-101) "" "net::ERR_CONNECTION_RESET")), .env .op, .env .op, .env .op, .env .op,
    .env .op, .env .op, .env .op, .env .op, .owner .proceed, .owner .proceed, .owner .proceed, .owner .proceed]
  have ends : (machine.run (initial "http://a/" 20 .stream "30.0" 30000 false) labels).map
      (fun s => (s.owner.pc.result?, s.call.outcome)) = some (some .exhausted, some (-101)) := by decide
  obtain ⟨s, ran, ended⟩ := Option.map_eq_some_iff.mp ends
  obtain ⟨exhausted, failed⟩ := Prod.mk.inj ended
  refine ⟨labels, s, ran, exhausted, failed, fun kept => ?_⟩
  simp [StreamContract, exhausted, failed] at kept

end Owned

end Cronet.Session
