import Cronet.Session.Owner

namespace Cronet.Session

open Cronet.Native (Bytes Call Label)

def OwnedLabel.brings : OwnedLabel → Bytes
  | .env label => label.brings
  | .owner _ => []

namespace Owned

theorem others_takes {label : Label} (other : others label = true) : label.takes = [] := by
  cases label with
  | read capacity ret => cases other
  | _ => rfl

theorem uses_brings (s : Owned) (act : Act) : (s.uses act).flatMap Label.brings = [] := by
  cases act with
  | proceed =>
    simp only [uses]
    split <;> simp [Label.brings]
  | _ => rfl

theorem trace_transfers {s t : Owned} {labels : List OwnedLabel} (ran : machine.run s labels = some t) :
    t.owner.pieces.flatten = s.owner.pieces.flatten ++ (callOf.trace s labels).flatMap Label.takes ∧
      (callOf.trace s labels).flatMap Label.brings = labels.flatMap OwnedLabel.brings := by
  induction labels generalizing s with
  | nil =>
    cases ran
    exact ⟨(List.append_nil _).symm, rfl⟩
  | cons label labels ih =>
    obtain ⟨u, stepped, rest⟩ := Machine.run_cons.mp ran
    obtain ⟨taken, brought⟩ := ih rest
    simp only [Machine.Simulation.trace, stepped, List.flatMap_append, List.flatMap_cons, taken, brought]
    cases label with
    | env label =>
      simp only [machine, step, Option.ite_none_right_eq_some, Option.map_eq_some_iff] at stepped
      obtain ⟨other, call, _, rfl⟩ := stepped
      simp [callOf, OwnedLabel.brings, others_takes other]
    | owner act =>
      simp only [machine, step, Option.ite_none_right_eq_some] at stepped
      rw [(act_spec stepped.2).pieces]
      simp [callOf, OwnedLabel.brings, uses_brings]

theorem concluded_spec (s : Owned) :
    (∃ e, s.concluded = .raised (.cronet e)) ∨
      ∃ response, s.concluded = .returned response ∧ response.content = s.owner.pieces.flatten ∧
        s.call.shared.response.view.errorCode = 0 ∧
        (s.owner.requireHttp3 = true → s.call.shared.response.view.negotiatedProtocol = some "h3") := by
  unfold concluded
  split
  · exact .inl ⟨_, rfl⟩
  · rename_i raw ok
    obtain ⟨view, pointer, zero, same⟩ := readResponse_ok ok
    have shown : s.call.shared.response.view = view := by
      unfold Cronet.Native.CallState.responsePointer at pointer
      split at pointer
      · cases pointer
      · exact Option.some.inj pointer
    split
    · exact .inl ⟨_, rfl⟩
    · rename_i response passed
      obtain ⟨rfl, version⟩ := checked_ok passed
      refine .inr ⟨_, rfl, rfl, shown ▸ zero, fun required => ?_⟩
      have h3 := same.symm.trans (version required)
      rw [shown]
      cases protocol : view.negotiatedProtocol with
      | none => simp [protocol] at h3
      | some name => simpa [protocol] using h3

structure OwnedInv (s : Owned) : Prop where
  call : s.call.CallInv
  headed : s.owner.pc.headed = true → ¬ s.started
  final : s.owner.pc = .final → s.owner.kind ≠ .stream ∧ s.atEnd
  exhausted : s.owner.pc.result? = some .exhausted → s.owner.kind = .stream ∧ s.atEnd
  returned : ∀ response, s.owner.pc.result? = some (.returned response) →
    s.owner.kind ≠ .stream ∧ s.atEnd ∧ response.content = s.owner.pieces.flatten
  stream : s.owner.kind = .stream → ∀ e, s.owner.pc.result? = some (.raised e) → e = .timeoutError
  request : s.owner.kind ≠ .stream → ∀ r, s.owner.pc.result? = some r →
    (∃ e, r = .raised e) ∨ ∃ response, r = .returned response

theorem ownedInv_initial (url : String) (maxRedirects : Int) (kind : Kind) (seconds : String) (timeoutMs : Int)
    (requireHttp3 : Bool) : OwnedInv (initial url maxRedirects kind seconds timeoutMs requireHttp3) := by
  have call := Call.callInv_initial url maxRedirects
  constructor <;> simp [initial, Pc.result?, Pc.headed, call]

theorem OwnedInv.env {s : Owned} {label : Label} {call : Call} (inv : OwnedInv s)
    (moved : s.call.step label = some call) : OwnedInv { s with call } := by
  have ended : s.atEnd → atEnd { s with call } := inv.call.ended_step moved
  refine ⟨inv.call.step moved, fun headed => Call.state_step moved (inv.headed headed), fun final => ?_,
    fun answer => ?_, fun response answer => ?_, inv.stream, inv.request⟩
  · exact ⟨(inv.final final).1, ended (inv.final final).2⟩
  · exact ⟨(inv.exhausted answer).1, ended (inv.exhausted answer).2⟩
  · obtain ⟨request, held, content⟩ := inv.returned response answer
    exact ⟨request, ended held, content⟩

theorem settled_takes {s : Owned} {r : Result} (settled : s.owner.pc.result? = some r) (act : Act) :
    (s.uses act).flatMap Label.takes = [] := by
  cases act with
  | proceed =>
    simp only [uses]
    split <;> simp_all [Label.takes, Pc.result?]
  | _ => rfl

theorem headed_working {pc : Pc} (headed : pc.headed = true) : pc.result? = none := by
  cases pc <;> simp_all [Pc.headed, Pc.result?]

theorem OwnedInv.act_settled {s t : Owned} {act : Act} {r : Result} (inv : OwnedInv s) (acted : s.act act = some t)
    (settled : s.owner.pc.result? = some r) : OwnedInv t := by
  have spec := act_spec acted
  have still := Owned.act_settled acted settled
  have ended : s.atEnd → t.atEnd := inv.call.ended_run spec.played
  have same : t.owner.pc.result? = s.owner.pc.result? := still.trans settled.symm
  have pieces : t.owner.pieces.flatten = s.owner.pieces.flatten := by
    rw [spec.pieces, settled_takes settled, List.append_nil]
  refine ⟨inv.call.run spec.played, fun headed => ?_, fun final => ?_, fun answer => ?_, fun response answer => ?_, ?_, ?_⟩
  · rw [headed_working headed] at still
    cases still
  · simp [final, Pc.result?] at still
  · rw [spec.kind]
    obtain ⟨stream, held⟩ := inv.exhausted (same ▸ answer)
    exact ⟨stream, ended held⟩
  · rw [spec.kind, pieces]
    obtain ⟨request, held, content⟩ := inv.returned response (same ▸ answer)
    exact ⟨request, ended held, content⟩
  · rw [spec.kind, same]
    exact inv.stream
  · rw [spec.kind, same]
    exact inv.request

theorem OwnedInv.act {s t : Owned} {act : Act} (inv : OwnedInv s) (acted : s.act act = some t) : OwnedInv t := by
  cases working : s.owner.pc.result? with
  | some r => exact inv.act_settled acted working
  | none =>
    have spec := act_spec acted
    have call := inv.call.run spec.played
    have ended : s.atEnd → t.atEnd := inv.call.ended_run spec.played
    have moved : ¬ s.started → ¬ t.started := Call.state_run spec.played
    cases act_settles acted working with
    | goesOn isOpen reading headed =>
      exact ⟨call, fun now => (headed now).elim (fun was => moved (inv.headed was)) moved,
        fun final => absurd final reading, by simp [isOpen], by simp [isOpen], by simp [isOpen], by simp [isOpen]⟩
    | final request held headed same =>
      exact ⟨call, fun _ => moved (inv.headed headed), fun _ => ⟨spec.kind ▸ request, ended held⟩,
        by simp [same, Pc.result?], by simp [same, Pc.result?], by simp [same, Pc.result?], by simp [same, Pc.result?]⟩
    | exhausted stream _ held settled =>
      exact ⟨call, fun headed => by simp [headed_working headed] at settled,
        fun final => by simp [final, Pc.result?] at settled, fun _ => ⟨spec.kind.trans stream, ended held⟩,
        by simp [settled], by simp [settled], by simp [spec.kind, stream]⟩
    | notOpened stream settled | abandoned stream settled =>
      exact ⟨call, fun headed => by simp [headed_working headed] at settled,
        fun final => by simp [final, Pc.result?] at settled, by simp [settled], by simp [settled], by simp [settled],
        by simp [spec.kind, stream]⟩
    | timedOut stream _ _ settled =>
      exact ⟨call, fun headed => by simp [headed_working headed] at settled,
        fun final => by simp [final, Pc.result?] at settled, by simp [settled], by simp [settled], by simp [settled],
        by simp [spec.kind, stream]⟩
    | raised request settled =>
      refine ⟨call, fun headed => by simp [headed_working headed] at settled,
        fun final => by simp [final, Pc.result?] at settled, by simp [settled], by simp [settled],
        by simp [spec.kind, request], ?_⟩
      intro _ r same
      exact .inl ⟨_, (Option.some.inj (settled.symm.trans same)).symm⟩
    | concluded last _ settled =>
      obtain ⟨request, held⟩ := inv.final last
      have pieces : t.owner.pieces.flatten = s.owner.pieces.flatten := by
        have unused : s.uses act = [] := by cases act <;> simp [uses, last]
        rw [spec.pieces, unused, List.flatMap_nil, List.append_nil]
      refine ⟨call, fun headed => by simp [headed_working headed] at settled,
        fun final => by simp [final, Pc.result?] at settled, fun answer => ?_, fun response answer => ?_,
        by simp [spec.kind, request], ?_⟩
      · rcases concluded_spec s with ⟨e, raises⟩ | ⟨response, returns, _⟩
        · simp [settled, raises] at answer
        · simp [settled, returns] at answer
      · rcases concluded_spec s with ⟨e, raises⟩ | ⟨response, returns, content, _⟩
        · simp [settled, raises] at answer
        · simp only [settled, returns, Option.some.injEq, Result.returned.injEq] at answer
          exact ⟨spec.kind ▸ request, ended held, by rw [← answer, content, pieces]⟩
      · intro _ r same
        rcases concluded_spec s with ⟨e, raises⟩ | ⟨response, returns, _⟩
        · exact .inl ⟨_, (Option.some.inj (settled.symm.trans same)).symm.trans raises⟩
        · exact .inr ⟨_, (Option.some.inj (settled.symm.trans same)).symm.trans returns⟩

theorem OwnedInv.step {s t : Owned} {label : OwnedLabel} (inv : OwnedInv s) (stepped : s.step label = some t) :
    OwnedInv t := by
  cases label with
  | env label =>
    simp only [Owned.step, Option.ite_none_right_eq_some, Option.map_eq_some_iff] at stepped
    obtain ⟨_, call, moved, rfl⟩ := stepped
    exact inv.env moved
  | owner act =>
    simp only [Owned.step, Option.ite_none_right_eq_some] at stepped
    exact inv.act stepped.2

section Run

variable {url seconds : String} {maxRedirects timeoutMs : Int} {kind : Kind} {requireHttp3 : Bool}
  {labels : List OwnedLabel} {s : Owned}

theorem ownedInv_of_run
    (ran : machine.run (initial url maxRedirects kind seconds timeoutMs requireHttp3) labels = some s) : OwnedInv s :=
  Machine.invariant OwnedInv (ownedInv_initial url maxRedirects kind seconds timeoutMs requireHttp3)
    (fun _ _ _ inv stepped => inv.step stepped) ran

theorem kind_of_run
    (ran : machine.run (initial url maxRedirects kind seconds timeoutMs requireHttp3) labels = some s) :
    s.owner.kind = kind := by
  refine Machine.invariant (fun s => s.owner.kind = kind) rfl ?_ ran
  intro a label b same stepped
  cases label with
  | env label =>
    simp only [machine, Owned.step, Option.ite_none_right_eq_some, Option.map_eq_some_iff] at stepped
    obtain ⟨_, call, _, rfl⟩ := stepped
    exact same
  | owner act =>
    simp only [machine, Owned.step, Option.ite_none_right_eq_some] at stepped
    exact (act_spec stepped.2).kind.trans same

/-- What the owner has read and what is left for it is what the network delivered. -/
theorem read_conserves
    (ran : machine.run (initial url maxRedirects kind seconds timeoutMs requireHttp3) labels = some s) :
    s.owner.pieces.flatten ++ s.call.shared.body.unread = labels.flatMap OwnedLabel.brings := by
  obtain ⟨c, played, rfl⟩ := callOf.run_trace rfl ran
  obtain ⟨taken, brought⟩ := trace_transfers ran
  have conserved := Call.call_conserves played
  simp only [initial, List.flatten_nil, List.nil_append] at taken
  rw [taken, ← brought]
  exact conserved

end Run

end Owned

end Cronet.Session
