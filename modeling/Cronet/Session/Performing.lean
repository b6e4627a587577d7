import Cronet.Session.Streaming

namespace Cronet.Session

open Cronet.Native (Bytes NetOp)

namespace Owned

/-- What a whole-body request promises: a failure raises, and a response is handed back only
    for a success, with every byte delivered. -/
structure PerformContract (s : Owned) (delivered : Bytes) : Prop where
  failure : ∀ code, s.call.outcome = some code → code ≠ 0 → ∃ e, s.owner.pc.result? = some (.raised e)
  success : ∀ response, s.owner.pc.result? = some (.returned response) →
    s.call.outcome = some 0 ∧ response.content = delivered

/-- `Finish` has a failure still to store when the owner asks for the result a last time, and
    the protocol gives the owner no other reason to raise. -/
def Unsettled (s : Owned) : Prop :=
  s.owner.pc = .final ∧ (∃ code, code ≠ 0 ∧ NetOp.storeErrorCode code ∈ s.call.net) ∧
    (s.owner.requireHttp3 = true → s.call.shared.response.view.negotiatedProtocol = some "h3")

def SettledFirst (s : Owned) (label : OwnedLabel) : Prop := ¬ (s.Unsettled ∧ label = .owner .proceed)

/-- A response has been handed back, or is about to be, for a call that failed. -/
def Misjudged (s : Owned) : Prop :=
  ∃ response, s.owner.pc.result? = some (.returned response) ∧ s.call.outcome ≠ some 0

theorem response_zero {s : Owned} (moved : ¬ s.started) (zero : s.call.shared.response.view.errorCode = 0) :
    ∃ raw, s.response = .ok raw ∧ raw.httpVersion = s.call.shared.response.view.negotiatedProtocol.getD "" := by
  have pointer : s.call.shared.responsePointer = some s.call.shared.response.view := if_neg moved
  simp [response, readResponse, pointer, zero]

theorem concluded_unsettled {s : Owned} (inv : OwnedInv s) (unsettled : s.Unsettled) :
    ∃ response, s.concluded = .returned response := by
  obtain ⟨last, ⟨code, _, pending⟩, version⟩ := unsettled
  obtain ⟨raw, ok, same⟩ := response_zero (inv.headed (by simp [last, Pc.headed]))
    (inv.call.outcome.unstored code pending)
  refine ⟨.fromRaw raw s.owner.pieces.flatten, ?_⟩
  have passes : checked s.owner.requireHttp3 (.fromRaw raw s.owner.pieces.flatten) =
      .ok (.fromRaw raw s.owner.pieces.flatten) := by
    apply if_neg
    rintro ⟨required, downgraded⟩
    apply downgraded
    have h3 := version required
    rw [h3] at same
    exact same
  simp [concluded, ok, passes]

theorem OwnedInv.outcome_at_end {s : Owned} (inv : OwnedInv s) (ended : s.atEnd) : ∃ code, s.call.outcome = some code :=
  Option.isSome_iff_exists.mp (inv.call.outcome.completed (.inl ended.1))

/-- A right judgement stays right: the outcome was settled before the body ended. -/
theorem misjudged_kept {s t : Owned} {labels : List Cronet.Native.Label} (inv : OwnedInv s) (fine : ¬ s.Misjudged)
    (played : Cronet.Native.Call.machine.run s.call labels = some t.call)
    (same : ∀ response, t.owner.pc.result? = some (.returned response) →
      s.owner.pc.result? = some (.returned response)) : ¬ t.Misjudged := by
  rintro ⟨response, returned, failed⟩
  have before := same response returned
  obtain ⟨code, outcome⟩ := inv.outcome_at_end (inv.returned response before).2.1
  have zero : s.call.outcome = some 0 := by
    by_contra failed
    exact fine ⟨response, before, failed⟩
  exact failed (inv.call.outcome_run played zero)

theorem final_proceeds {s t : Owned} (last : s.owner.pc = .final) (acted : s.act .proceed = some t) :
    t.call = s.call ∧ t.owner.pc.result? = some s.concluded := by
  simp only [act, proceed, last, Option.some.injEq] at acted
  subst acted
  exact ⟨rfl, settle_result _ _⟩

theorem misjudged_step {s t : Owned} {label : OwnedLabel} (inv : OwnedInv s) (fine : ¬ s.Misjudged)
    (stepped : s.step label = some t) : t.Misjudged ↔ ¬ s.SettledFirst label := by
  cases label with
  | env label =>
    simp only [step, Option.ite_none_right_eq_some, Option.map_eq_some_iff] at stepped
    obtain ⟨_, call, moved, rfl⟩ := stepped
    have played : Cronet.Native.Call.machine.run s.call [label] = some call := Machine.run_cons.mpr ⟨call, moved, rfl⟩
    have kept := @misjudged_kept s { s with call } [label] inv fine played fun _ same => same
    simp [SettledFirst, kept]
  | owner act =>
    simp only [step, Option.ite_none_right_eq_some] at stepped
    have acted := stepped.2
    by_cases concludes : s.owner.pc = .final ∧ act = .proceed
    · obtain ⟨last, rfl⟩ := concludes
      obtain ⟨same, settled⟩ := final_proceeds last acted
      have unsettled : ¬ s.SettledFirst (.owner .proceed) ↔ s.Unsettled := by simp [SettledFirst]
      rw [unsettled]
      obtain ⟨code, outcome⟩ := inv.outcome_at_end (inv.final last).2
      constructor
      · rintro ⟨response, returned, failed⟩
        rcases concluded_spec s with ⟨e, raises⟩ | ⟨_, _, _, zero, version⟩
        · simp [settled, raises] at returned
        · rw [same, outcome] at failed
          have nonzero : code ≠ 0 := fun same => failed (by rw [same])
          have pending := (inv.call.outcome.stored code outcome).resolve_right fun stored => nonzero (stored ▸ zero)
          exact ⟨last, ⟨code, nonzero, pending⟩, version⟩
      · intro unsettled
        obtain ⟨response, returns⟩ := concluded_unsettled inv unsettled
        obtain ⟨_, ⟨pending, nonzero, stores⟩, _⟩ := unsettled
        refine ⟨response, settled.trans (by rw [returns]), ?_⟩
        rw [same, inv.call.outcome.storing pending stores]
        exact fun zero => nonzero (Option.some.inj zero)
    · have first : s.SettledFirst (.owner act) := by
        rintro ⟨⟨last, _⟩, same⟩
        exact concludes ⟨last, OwnedLabel.owner.inj same⟩
      simp only [first, not_true_eq_false, iff_false]
      refine misjudged_kept inv fine (act_spec acted).played fun response returned => ?_
      cases working : s.owner.pc.result? with
      | some r => rw [← act_settled acted working, returned]
      | none =>
        cases act_settles acted working with
        | goesOn isOpen _ _ => simp [isOpen] at returned
        | final _ _ _ same => simp [same, Pc.result?] at returned
        | exhausted _ _ _ settled | notOpened _ settled | abandoned _ settled | timedOut _ _ _ settled
        | raised _ settled => simp [settled] at returned
        | concluded last proceeds _ => exact absurd ⟨last, proceeds⟩ concludes

theorem misjudged_stays {s t : Owned} {label : OwnedLabel} (inv : OwnedInv s) (misjudged : s.Misjudged)
    (stepped : s.step label = some t) : t.Misjudged := by
  obtain ⟨response, returned, failed⟩ := misjudged
  obtain ⟨code, outcome⟩ := inv.outcome_at_end (inv.returned response returned).2.1
  obtain ⟨_, played, rfl⟩ := callOf.played rfl stepped
  refine ⟨response, step_result stepped returned, ?_⟩
  rw [inv.call.outcome_run played outcome, ← outcome]
  exact failed

variable {url seconds : String} {maxRedirects timeoutMs : Int} {requireHttp3 : Bool} {kind : Kind}
  {labels : List OwnedLabel} {s : Owned}

theorem misjudged_iff
    (ran : machine.run (initial url maxRedirects kind seconds timeoutMs requireHttp3) labels = some s) :
    s.Misjudged ↔
      ¬ machine.Meets SettledFirst (initial url maxRedirects kind seconds timeoutMs requireHttp3) labels := by
  refine Machine.history_invariant (fun past a => a.Misjudged ↔
    ¬ machine.Meets SettledFirst (initial url maxRedirects kind seconds timeoutMs requireHttp3) past) ?_ ?_ ran
  · simp [Misjudged, initial, Pc.result?, Machine.Meets]
  · intro past a label b before held stepped
    rw [Machine.meets_snoc before, not_and_or]
    by_cases misjudged : a.Misjudged
    · exact iff_of_true (misjudged_stays (ownedInv_of_run before) misjudged stepped) (.inl (held.mp misjudged))
    · rw [misjudged_step (ownedInv_of_run before) misjudged stepped, ← held]
      simp [misjudged]

/-- A whole-body request keeps its promise exactly when the owner does not come for the result
    while a failure is still to be stored. -/
theorem perform_contract_iff (url seconds : String) (maxRedirects timeoutMs : Int) (requireHttp3 : Bool) (kind : Kind)
    (whole : kind ≠ .stream) (labels : List OwnedLabel) (s : Owned)
    (ran : machine.run (initial url maxRedirects kind seconds timeoutMs requireHttp3) labels = some s)
    (settledCall : ∃ r, s.owner.pc.result? = some r) :
    PerformContract s (labels.flatMap OwnedLabel.brings) ↔
      machine.Meets SettledFirst (initial url maxRedirects kind seconds timeoutMs requireHttp3) labels := by
  have inv := ownedInv_of_run ran
  have request : s.owner.kind ≠ .stream := (kind_of_run ran).symm ▸ whole
  rw [← not_iff_not, ← misjudged_iff ran]
  constructor
  · intro broken
    by_contra fine
    refine broken ⟨fun code outcome nonzero => ?_, fun response returned => ?_⟩
    · obtain ⟨r, settled⟩ := settledCall
      rcases inv.request request r settled with ⟨e, rfl⟩ | ⟨response, rfl⟩
      · exact ⟨e, settled⟩
      · exact absurd ⟨response, settled, fun zero => nonzero (Option.some.inj (outcome.symm.trans zero))⟩ fine
    · have zero : s.call.outcome = some 0 := by
        by_contra failed
        exact fine ⟨response, returned, failed⟩
      obtain ⟨_, ended, content⟩ := inv.returned response returned
      exact ⟨zero, by rw [content, ← read_conserves ran, ended.2, List.append_nil]⟩
  · rintro ⟨response, returned, failed⟩ contract
    exact failed (contract.success response returned).1

theorem perform_contract_success :
    ∃ labels s, machine.run (initial "http://a/" 20 .request "30.0" 30000 false) labels = some s ∧
      PerformContract s [1, 2] := by
  let labels : List OwnedLabel := [.env (.registerCall true), .env .construct, .env .attachRequest, .env .start,
    .env (.task none), .env (.callback (.onResponseStarted ⟨200, "OK", none, false, "h2", ""⟩)), .env .op, .env .op,
    .env .op, .env .op, .env (.task none), .env (.callback (.onReadCompleted [1, 2])), .env .op, .env .op,
    .env (.task none), .env (.callback .onSucceeded), .env .op, .env .op, .env .op, .env .op, .env .op, .env .op,
    .env .op, .env .op, .owner .proceed, .owner .proceed, .owner .proceed, .owner .proceed, .owner .proceed,
    .owner .proceed, .owner .proceed, .owner .proceed, .owner .proceed]
  have ends : (machine.run (initial "http://a/" 20 .request "30.0" 30000 false) labels).map
      (fun s => (s.owner.pc.result?.isSome, s.call.outcome)) = some (true, some 0) := by decide
  obtain ⟨s, ran, ended⟩ := Option.map_eq_some_iff.mp ends
  obtain ⟨settledCall, success⟩ := Prod.mk.inj ended
  have settledFirst : machine.Meets SettledFirst (initial "http://a/" 20 .request "30.0" 30000 false) labels := by
    by_contra lost
    obtain ⟨_, _, failed⟩ := (misjudged_iff ran).mpr lost
    exact failed success
  exact ⟨labels, s, ran, (perform_contract_iff "http://a/" "30.0" 20 30000 false .request nofun labels s ran
    (Option.isSome_iff_exists.mp settledCall)).mpr settledFirst⟩

/-- The connection is reset after two bytes; between the end of the body and the store of the
    error code the owner reads the end and the result, and hands back the two bytes. -/
theorem perform_truncated :
    ∃ labels s response, machine.run (initial "http://a/" 20 .request "30.0" 30000 false) labels = some s ∧
      s.owner.pc.result? = some (.returned response) ∧ response.content = [1, 2] ∧ s.call.outcome = some (-101) ∧
      ¬ PerformContract s (labels.flatMap OwnedLabel.brings) := by
  let labels : List OwnedLabel := [.env (.registerCall true), .env .construct, .env .attachRequest, .env .start,
    .env (.task none), .env (.callback (.onResponseStarted ⟨200, "OK", none, false, "h2", ""⟩)), .env .op, .env .op,
    .env .op, .env .op, .env (.task none), .env (.callback (.onReadCompleted [1, 2])), .env .op, .env .op,
    .owner .proceed, .owner .proceed, .owner .proceed, .owner .proceed, .owner .proceed, .owner .proceed,
    .owner .proceed, .env (.callback (.onError (-101) "" "net::ERR_CONNECTION_RESET")), .env .op, .owner .proceed,
    .owner .proceed]
  have ends : (machine.run (initial "http://a/" 20 .request "30.0" 30000 false) labels).map (fun s =>
      ((s.owner.pc.result?.bind Result.response?).map Response.content, s.call.outcome)) =
        some (some [1, 2], some (-101)) := by decide
  obtain ⟨s, ran, ended⟩ := Option.map_eq_some_iff.mp ends
  obtain ⟨content, failed⟩ := Prod.mk.inj ended
  obtain ⟨response, responded, content⟩ := Option.map_eq_some_iff.mp content
  obtain ⟨result, settled, returns⟩ := Option.bind_eq_some_iff.mp responded
  obtain rfl := Result.response?_eq_some.mp returns
  refine ⟨labels, s, response, ran, settled, content, failed, fun contract => ?_⟩
  have success := (contract.success response settled).1
  simp [failed] at success

end Owned

end Cronet.Session
