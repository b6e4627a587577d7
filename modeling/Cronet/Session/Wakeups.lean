import Cronet.Native.Signalling
import Cronet.Session.Reading

namespace Cronet.Session

open Cronet.Native (Body Call Label ReadReturn)

namespace Owned

def waiting (s : Owned) : Prop := s.owner.pc = .headers .poll ∨ s.owner.pc = .body .poll

/-- The owner has observed all there is: no bytes and no end, and while it waits for the headers no headers. -/
def NothingNew (s : Owned) : Prop :=
  (s.owner.pc = .headers .poll → s.call.shared.state = .started) ∧ s.call.shared.body.unread = [] ∧
    s.call.shared.body.bodyComplete = false ∧ s.call.shared.state ≠ .done

structure WakeInv (s : Owned) : Prop where
  telling : s.call.Telling
  awake : s.waiting → NothingNew s ∨ s.call.Awake

theorem wakeInv_initial (url : String) (maxRedirects : Int) (kind : Kind) (seconds : String) (timeoutMs : Int)
    (requireHttp3 : Bool) : WakeInv (initial url maxRedirects kind seconds timeoutMs requireHttp3) := by
  refine ⟨Call.telling_initial url maxRedirects, fun waits => ?_⟩
  by_cases async : kind = .asyncRequest <;> simp [initial, waiting, async] at waits

theorem NothingNew.same {s : Owned} {call : Call} (none : NothingNew s) (same : Call.Same s.call call) :
    NothingNew { s with call } := by
  obtain ⟨early, drained, going, running⟩ := none
  obtain ⟨state, unread, complete⟩ := same
  exact ⟨fun poll => state.trans (early poll), unread drained, complete.trans going, state ▸ running⟩

theorem others_drain {label : Label} (other : others label = true) : label ≠ .drain := by
  rintro rfl
  cases other

theorem WakeInv.env {s : Owned} {label : Label} {call : Call} (inv : WakeInv s) (other : others label = true)
    (moved : s.call.step label = some call) : WakeInv { s with call } := by
  obtain ⟨telling, told⟩ := inv.telling.step moved
  refine ⟨telling, fun waits => ?_⟩
  rcases inv.awake waits with none | awake
  · exact told.imp_left none.same
  · exact .inr (awake.step (others_drain other) moved)

theorem settle_awake (o : Owner) (r : Result) (turn : Turn) : o.settle r ≠ .headers turn ∧ o.settle r ≠ .body turn := by
  unfold Owner.settle
  split <;> simp

theorem headersTimedOut_awake (o : Owner) (turn : Turn) :
    o.headersTimedOut ≠ .headers turn ∧ o.headersTimedOut ≠ .body turn := by
  unfold Owner.headersTimedOut
  split
  · simp
  · exact settle_awake o _ turn

theorem bodyTimedOut_awake (o : Owner) (turn : Turn) : o.bodyTimedOut ≠ .headers turn ∧ o.bodyTimedOut ≠ .body turn := by
  unfold Owner.bodyTimedOut
  split
  · exact settle_awake o _ turn
  · simp
  · exact settle_awake o _ turn

theorem firstTurn_awake (o : Owner) : o.firstTurn ≠ .poll := by
  unfold Owner.firstTurn
  split <;> simp

theorem opened_awake (s : Owned) : s.opened ≠ .headers .poll ∧ s.opened ≠ .body .poll := by
  unfold opened
  split
  · exact settle_awake s.owner _ .poll
  · split
    · split
      · exact settle_awake s.owner _ .poll
      · simpa using firstTurn_awake s.owner
    · simpa using firstTurn_awake s.owner

inductive Blocks (s t : Owned) : Prop where
  | headers (looked : s.owner.pc = .headers .look) (started : s.started) (same : t = s.goto (.headers .poll))
  | body (drained : t.call.shared.body.unread = []) (going : t.call.shared.body.bodyComplete = false)
      (poll : t.owner.pc = .body .poll)

theorem pull_blocks {s t : Owned} (pulled : s.pull = some t) (looked : s.owner.pc = .body .look) (waits : t.waiting) :
    Blocks s t := by
  obtain ⟨call, stepped, rfl⟩ := Option.map_eq_some_iff.mp pulled
  have spec := Body.read_spec s.call.shared.body (show 0 < CHUNK_SIZE by decide)
  have returned := spec.returned
  have after : call.shared.body = (s.call.shared.body.read CHUNK_SIZE).2.2 := by
    simp only [Call.step, Option.ite_none_right_eq_some, Option.some.injEq] at stepped
    obtain ⟨_, rfl⟩ := stepped
    rfl
  cases got : (s.call.shared.body.read CHUNK_SIZE).1 with
  | eof =>
    rw [got] at waits
    simp only [waiting] at waits
    split at waits
    · exact (waits.elim (settle_awake s.owner _ .poll).1 (settle_awake s.owner _ .poll).2).elim
    · simp at waits
  | copied out =>
    cases out with
    | cons byte out =>
      rw [got] at waits
      simp [waiting, looked] at waits
    | nil =>
      rw [got] at returned
      split at returned
      · cases returned
      · rename_i going
        have drained : s.call.shared.body.unread = [] := by
          have taken : s.call.shared.body.unread.take CHUNK_SIZE = [] := (ReadReturn.copied.inj returned).symm
          exact (List.take_eq_nil_iff.mp taken).resolve_left (by decide)
        refine .body ?_ ?_ rfl
        · change call.shared.body.unread = []
          rw [after, spec.unread, drained, List.drop_nil]
        · change call.shared.body.bodyComplete = false
          rw [after, spec.complete]
          simpa [drained] using going

theorem act_blocks {s t : Owned} {act : Act} (acted : s.act act = some t) (waits : t.waiting) : Blocks s t := by
  have settled (r : Result) : ¬ waiting (s.goto (s.owner.settle r)) := fun waits =>
    waits.elim (settle_awake s.owner r .poll).1 (settle_awake s.owner r .poll).2
  cases act with
  | proceed =>
    simp only [Owned.act, proceed] at acted
    cases pc : s.owner.pc with
    | headers turn =>
      cases turn with
      | round =>
        simp only [pc, Option.some.injEq] at acted
        subst acted
        simp [waiting, goto] at waits
      | drain =>
        simp only [pc] at acted
        obtain ⟨_, _, rfl⟩ := via_spec acted
        simp [waiting] at waits
      | look =>
        simp only [pc, Option.some.injEq] at acted
        by_cases started : s.started
        · rw [if_pos started] at acted
          exact .headers pc started acted.symm
        · rw [if_neg started] at acted
          subst acted
          simp [waiting, goto] at waits
      | poll =>
        simp only [pc, Option.ite_none_right_eq_some, Option.some.injEq] at acted
        obtain ⟨_, rfl⟩ := acted
        simp [waiting, goto, firstTurn_awake] at waits
    | headersLast =>
      simp only [pc, Option.some.injEq] at acted
      subst acted
      split at waits
      · exact (waits.elim (headersTimedOut_awake s.owner .poll).1 (headersTimedOut_awake s.owner .poll).2).elim
      · simp [waiting, goto] at waits
    | result =>
      simp only [pc, Option.some.injEq] at acted
      subst acted
      exact (waits.elim (opened_awake s).1 (opened_awake s).2).elim
    | body turn =>
      cases turn with
      | round =>
        simp only [pc, Option.some.injEq] at acted
        subst acted
        simp [waiting, goto] at waits
      | drain =>
        simp only [pc] at acted
        obtain ⟨_, _, rfl⟩ := via_spec acted
        simp [waiting] at waits
      | look =>
        simp only [pc] at acted
        exact pull_blocks acted pc waits
      | poll =>
        simp only [pc, Option.ite_none_right_eq_some, Option.some.injEq] at acted
        obtain ⟨_, rfl⟩ := acted
        simp [waiting, goto, firstTurn_awake] at waits
    | final =>
      simp only [pc, Option.some.injEq] at acted
      subst acted
      exact absurd waits (settled _)
    | cancelling | freeing =>
      simp only [pc] at acted
      obtain ⟨_, _, rfl⟩ := via_spec acted
      simp [waiting] at waits
    | waiting e =>
      simp only [pc, Option.ite_none_right_eq_some, Option.some.injEq] at acted
      obtain ⟨_, rfl⟩ := acted
      exact absurd waits (settled _)
    | leaving r =>
      simp only [pc] at acted
      split at acted
      · cases acted
        simp [Owned.waiting, goto] at waits
      · obtain ⟨_, _, rfl⟩ := via_spec acted
        simp [Owned.waiting] at waits
    | releasing r =>
      simp only [pc, Option.ite_none_right_eq_some, Option.some.injEq] at acted
      obtain ⟨_, rfl⟩ := acted
      simp [Owned.waiting, goto] at waits
    | done r => simp [pc] at acted
  | expire =>
    simp only [Owned.act, expire, Option.ite_none_left_eq_some] at acted
    obtain ⟨_, acted⟩ := acted
    split at acted
    · cases acted
      simp [waiting, goto] at waits
    · cases acted
      exact (waits.elim (headersTimedOut_awake s.owner .poll).1 (headersTimedOut_awake s.owner .poll).2).elim
    · cases acted
      exact (waits.elim (bodyTimedOut_awake s.owner .poll).1 (bodyTimedOut_awake s.owner .poll).2).elim
    · cases acted
      exact (waits.elim (bodyTimedOut_awake s.owner .poll).1 (bodyTimedOut_awake s.owner .poll).2).elim
    · cases acted
  | cancelled | leave =>
    simp only [Owned.act, Option.ite_none_right_eq_some, Option.some.injEq] at acted
    obtain ⟨_, rfl⟩ := acted
    exact absurd waits (settled _)

theorem WakeInv.act {s t : Owned} {act : Act} (inv : WakeInv s) (acted : s.act act = some t) : WakeInv t := by
  have telling := inv.telling.run (act_spec acted).played
  refine ⟨telling, fun waits => ?_⟩
  cases act_blocks acted waits with
  | headers looked started same =>
    subst same
    by_cases complete : s.call.shared.body.bodyComplete = true
    · exact .inr (.inr (inv.telling.signals_of_complete complete (by rw [started]; simp)))
    · refine .inl ⟨fun _ => started, inv.telling.news.fresh started, Bool.eq_false_iff.mpr complete, ?_⟩
      change s.call.shared.state ≠ .done
      rw [started]
      simp
  | body drained going poll =>
    refine .inl ⟨fun headers => absurd (poll.symm.trans headers) (by simp), drained, going, fun done => ?_⟩
    rw [telling.complete_of_done done] at going
    cases going

theorem WakeInv.step {s t : Owned} {label : OwnedLabel} (inv : WakeInv s) (stepped : s.step label = some t) : WakeInv t := by
  cases label with
  | env label =>
    simp only [Owned.step, Option.ite_none_right_eq_some, Option.map_eq_some_iff] at stepped
    obtain ⟨other, call, moved, rfl⟩ := stepped
    exact inv.env other moved
  | owner act =>
    simp only [Owned.step, Option.ite_none_right_eq_some] at stepped
    exact inv.act stepped.2

/-- No wakeup is lost: where an owner waits on a descriptor at zero it has seen everything, or its signal is on the way. -/
theorem no_lost_wakeup (url seconds : String) (maxRedirects timeoutMs : Int) (kind : Kind) (requireHttp3 : Bool)
    (labels : List OwnedLabel) (s : Owned)
    (ran : machine.run (initial url maxRedirects kind seconds timeoutMs requireHttp3) labels = some s)
    (waits : s.waiting) (silent : s.call.shared.completionFd = 0) :
    NothingNew s ∨ Cronet.Native.signals s.call.net = true := by
  have inv := Machine.invariant WakeInv (wakeInv_initial url maxRedirects kind seconds timeoutMs requireHttp3)
    (fun _ _ _ inv stepped => inv.step stepped) ran
  exact (inv.awake waits).imp_right fun awake => awake.resolve_left (by omega)

theorem no_lost_wakeup_waiting :
    ∃ labels s, machine.run (initial "http://a/" 20 .request "30" 30000 false) labels = some s ∧ s.waiting ∧
      s.call.shared.completionFd = 0 ∧ (NothingNew s ∨ Cronet.Native.signals s.call.net = true) :=
  ⟨[.env (.registerCall true), .env .construct, .env .attachRequest, .env .start, .owner .proceed, .owner .proceed,
    .owner .proceed], _, rfl, .inl rfl, rfl, no_lost_wakeup "http://a/" "30" 20 30000 .request false
    [.env (.registerCall true), .env .construct, .env .attachRequest, .env .start, .owner .proceed, .owner .proceed,
    .owner .proceed] _ rfl (.inl rfl) rfl⟩

end Owned

end Cronet.Session
