import Cronet.Native.Publishing
import Cronet.Native.Releasing
import Cronet.Session.Streaming

namespace Cronet.Native.Call

variable {c d : Call} {label : Label}

theorem perform_observer (c : Call) (ops : List NetOp) : (c.perform ops).observer = c.observer := by
  cases ops with
  | nil => rfl
  | cons op rest => exact exec_observer c op

theorem direct_step (direct : c.observer = ⟨0, 0⟩) (stepped : c.step label = some d) : d.observer = ⟨0, 0⟩ := by
  cases label with
  | op =>
    simp only [step, Option.ite_none_left_eq_some, Option.some.injEq] at stepped
    rcases stepped with ⟨_, rfl⟩
    exact (perform_observer c c.net).trans direct
  | task metrics =>
    simp only [step, Option.ite_none_right_eq_some, Option.map_eq_some_iff] at stepped
    rcases stepped with ⟨_, ran, _, rfl⟩
    exact (perform_observer _ _).trans direct
  | callback cb =>
    simp only [step, Option.ite_none_right_eq_some, Option.map_eq_some_iff] at stepped
    rcases stepped with ⟨_, request, _, rfl⟩
    rw [receive, perform_observer]
    cases cb with
    | onReceivedRedirect location head =>
      show (c.observer.onReceivedRedirect location head).1 = _
      rw [direct]
      rfl
    | _ => exact direct
  | _ =>
    simp only [step, Option.ite_none_right_eq_some, Option.some.injEq] at stepped
    rcases stepped with ⟨_, rfl⟩
    exact direct

theorem direct_run {url : String} {labels : List Label} (ran : machine.run (initial url 0) labels = some c)
    (readable : c.shared.state ≠ .started) :
    c.shared.response.view.finalUrl = some url ∧ c.shared.response.view.redirectCount = 0 := by
  have observer := Machine.invariant (fun c : Call => c.observer = ⟨0, 0⟩) (by rfl)
    (fun _ _ _ direct stepped => direct_step direct stepped) ran
  rcases responding_of_run ran with ⟨_, progress, responding⟩
  have unfollowed : redirected (machine.outputs performed (initial url 0) labels) = [] := by
    apply List.eq_nil_of_length_eq_zero
    rw [← responding.observed, observer]
  have published := (responding.published (responding.published_of_readable progress readable)).1
  apply And.intro
  · rw [published.finalUrl, responding.finalUrl, unfollowed]
    rfl
  · rw [responding.counted, unfollowed]
    split <;> rfl

end Cronet.Native.Call

namespace Cronet.Session

open Cronet.Native (Bytes Call Label)

namespace Owned

variable {s t : Owned} {act : Act} {r : Result} {url seconds : String} {timeoutMs : Int} {kind : Kind} {requireHttp3 : Bool}
  {labels : List OwnedLabel}

theorem settle_undone (o : Owner) (r : Result) (result : Result) : o.settle r ≠ .done result := by
  unfold Owner.settle
  split
  · exact fun same => by cases same
  · exact fun same => by cases same

theorem fail_undone (o : Owner) (e : CronetError) (result : Result) : o.fail e ≠ .done result := settle_undone o _ result

theorem headersTimedOut_undone (o : Owner) (result : Result) : o.headersTimedOut ≠ .done result := by
  unfold Owner.headersTimedOut
  split
  · exact fun same => by cases same
  · exact fail_undone o _ result

theorem bodyTimedOut_undone (o : Owner) (result : Result) : o.bodyTimedOut ≠ .done result := by
  unfold Owner.bodyTimedOut
  split
  · exact settle_undone o _ result
  · exact fun same => by cases same
  · exact settle_undone o _ result

theorem opened_undone (s : Owned) (result : Result) : s.opened ≠ .done result := by
  unfold opened
  split
  · exact fail_undone s.owner _ result
  · split
    · split
      · exact fail_undone s.owner _ result
      · exact fun same => by cases same
    · exact fun same => by cases same

theorem via_pc {pc : Pc} {label : Label} (gone : s.via label pc = some t) : t.owner.pc = pc := by
  rcases via_spec gone with ⟨call, _, rfl⟩
  rfl

theorem act_done (acted : s.act act = some t) (ended : t.owner.pc = .done r) : t.call.shared.released = true := by
  have goes {pc : Pc} (same : some (s.goto pc) = some t) : pc = .done r := by
    cases same
    exact ended
  cases act with
  | proceed =>
    simp only [Owned.act, proceed] at acted
    cases pc : s.owner.pc with
    | headers turn =>
      cases turn with
      | round => cases goes (by simpa only [pc] using acted)
      | drain => cases (via_pc (by simpa only [pc] using acted)).symm.trans ended
      | look =>
        have same := goes (by simpa only [pc] using acted)
        split at same <;> cases same
      | poll =>
        simp only [pc, Option.ite_none_right_eq_some] at acted
        cases goes acted.2
    | headersLast =>
      have same := goes (by simpa only [pc] using acted)
      split at same
      · exact absurd same (headersTimedOut_undone s.owner r)
      · cases same
    | result => exact absurd (goes (by simpa only [pc] using acted)) (opened_undone s r)
    | body turn =>
      cases turn with
      | round => cases goes (by simpa only [pc] using acted)
      | drain => cases (via_pc (by simpa only [pc] using acted)).symm.trans ended
      | look =>
        simp only [pc] at acted
        rcases pull_spec acted with ⟨_, _, _, _, _, _, ⟨_, same⟩ | same | same⟩
        · rw [ended] at same
          split at same
          · exact absurd same.symm (settle_undone s.owner _ r)
          · cases same
        · cases same.symm.trans ended
        · rw [pc] at same
          cases same.symm.trans ended
      | poll =>
        simp only [pc, Option.ite_none_right_eq_some] at acted
        cases goes acted.2
    | final => exact absurd (goes (by simpa only [pc] using acted)) (settle_undone s.owner _ r)
    | cancelling e => cases (via_pc (by simpa only [pc] using acted)).symm.trans ended
    | waiting e =>
      simp only [pc, Option.ite_none_right_eq_some] at acted
      exact absurd (goes acted.2) (settle_undone s.owner _ r)
    | leaving result =>
      simp only [pc] at acted
      split at acted
      · cases goes acted
      · cases (via_pc acted).symm.trans ended
    | freeing result => cases (via_pc (by simpa only [pc] using acted)).symm.trans ended
    | releasing result =>
      simp only [pc, Option.ite_none_right_eq_some] at acted
      rcases acted with ⟨released, same⟩
      cases same
      exact released
    | done result =>
      simp only [pc] at acted
      cases acted
  | expire =>
    simp only [Owned.act, expire, Option.ite_none_left_eq_some] at acted
    rcases acted with ⟨_, acted⟩
    split at acted
    · cases goes acted
    · exact absurd (goes acted) (headersTimedOut_undone s.owner r)
    · exact absurd (goes acted) (bodyTimedOut_undone s.owner r)
    · exact absurd (goes acted) (bodyTimedOut_undone s.owner r)
    · cases acted
  | cancelled | leave =>
    simp only [Owned.act, Option.ite_none_right_eq_some] at acted
    exact absurd (goes acted.2) (settle_undone s.owner _ r)

theorem releaseInv_of_run {maxRedirects : Int}
    (ran : machine.run (initial url maxRedirects kind seconds timeoutMs requireHttp3) labels = some s) :
    Call.ReleaseInv s.call := by
  rcases callOf.run_trace rfl ran with ⟨c, played, rfl⟩
  exact Call.releaseInv_of_run played

theorem done_released {maxRedirects : Int}
    (ran : machine.run (initial url maxRedirects kind seconds timeoutMs requireHttp3) labels = some s)
    (ended : s.owner.pc = .done r) : s.call.shared.released = true := by
  refine Machine.history_invariant (fun _ s => ∀ r, s.owner.pc = .done r → s.call.shared.released = true) ?_ ?_ ran r ended
  · intro r same
    cases same
  · intro past a label b before held stepped r ended
    cases label with
    | env label =>
      simp only [machine, Owned.step, Option.ite_none_right_eq_some, Option.map_eq_some_iff] at stepped
      rcases stepped with ⟨_, call, moved, rfl⟩
      exact ((releaseInv_of_run before).released_step (held r ended) moved).2
    | owner act =>
      simp only [machine, Owned.step, Option.ite_none_right_eq_some] at stepped
      exact act_done stepped.2 ended

structure Direct (url : String) (requireHttp3 : Bool) (response : Response) : Prop where
  url : response.url = url
  unredirected : response.redirectCount = 0
  version : requireHttp3 = true → response.httpVersion = "h3"

theorem concluded_direct (ran : machine.run (initial url 0 kind seconds timeoutMs requireHttp3) labels = some s)
    (last : s.owner.pc = .final) {response : Response} (returns : s.concluded = .returned response) :
    Direct url s.owner.requireHttp3 response := by
  have moved := (ownedInv_of_run ran).headed (by rw [last]; rfl)
  rcases callOf.run_trace rfl ran with ⟨c, played, rfl⟩
  have direct := Call.direct_run played moved
  have pointer : s.call.shared.responsePointer = some s.call.shared.response.view := if_neg moved
  unfold concluded Owned.response readResponse at returns
  simp only [pointer] at returns
  split at returns
  · cases returns
  · rename_i raw ok
    split at ok
    · cases ok
    · split at returns
      · cases returns
      · rename_i passed accepted
        cases returns
        rcases checked_ok accepted with ⟨rfl, version⟩
        cases ok
        refine ⟨?_, direct.2, version⟩
        show s.call.shared.response.view.finalUrl.getD "" = url
        rw [direct.1]
        rfl

theorem returned_direct (ran : machine.run (initial url 0 kind seconds timeoutMs requireHttp3) labels = some s)
    {response : Response} (returned : s.owner.pc.result? = some (.returned response)) :
    Direct url requireHttp3 response := by
  refine (Machine.history_invariant (fun _ s => s.owner.requireHttp3 = requireHttp3 ∧ ∀ response,
    s.owner.pc.result? = some (.returned response) → Direct url requireHttp3 response) ?_ ?_ ran).2 response returned
  · apply And.intro rfl
    intro response same
    cases same
  · intro past a label b before held stepped
    cases label with
    | env label =>
      simp only [machine, Owned.step, Option.ite_none_right_eq_some, Option.map_eq_some_iff] at stepped
      rcases stepped with ⟨_, call, _, rfl⟩
      exact held
    | owner act =>
      simp only [machine, Owned.step, Option.ite_none_right_eq_some] at stepped
      have acted := stepped.2
      apply And.intro ((act_spec acted).requireHttp3.trans held.1)
      intro response returned
      cases working : a.owner.pc.result? with
      | some r =>
        rw [act_settled acted working, ← working] at returned
        exact held.2 response returned
      | none =>
        cases act_settles acted working with
        | goesOn isOpen _ _ => simp [isOpen] at returned
        | final _ _ _ same => simp [same, Pc.result?] at returned
        | exhausted _ _ _ settled | notOpened _ settled | abandoned _ settled | timedOut _ _ _ settled
        | raised _ settled => simp [settled] at returned
        | concluded last _ settled =>
          rw [← held.1]
          exact concluded_direct before last (Option.some.inj (settled.symm.trans returned))

end Owned

end Cronet.Session
