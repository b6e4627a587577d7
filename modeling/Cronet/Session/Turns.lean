import Cronet.Session.Awaiting
import Mathlib.Data.List.Count

namespace Cronet.Session

open Cronet.Native (Call Label)

def AsyncLabel.selects {ι : Type} : AsyncLabel ι → Bool
  | .select _ => true
  | _ => false

namespace AsyncCall

theorem Reached.telling {c : AsyncCall} (reached : c.Reached) : Owned.WakeInv c.owned := by
  rcases reached with ⟨url, seconds, maxRedirects, timeoutMs, requireHttp3, labels, ran⟩
  exact Machine.invariant Owned.WakeInv (Owned.wakeInv_initial url maxRedirects .asyncRequest seconds timeoutMs requireHttp3)
    (fun _ _ _ inv stepped => inv.step stepped) ran

end AsyncCall

namespace AsyncLoop

variable {ι : Type} {s t : AsyncLoop ι} {i j : ι} {c d : AsyncCall} {w v : Wait}

def Heard (c : AsyncCall) (w : Wait) : Prop := w.state ≠ .pending ∨ 0 < c.owned.call.shared.completionFd

variable [DecidableEq ι]

def turnsLeft (s : AsyncLoop ι) (i : ι) (c : AsyncCall) (w : Wait) : Nat :=
  if w.state = .pending then if .onReadable i c.descriptor w.future ∈ s.loop.batch then 1 else 2
  else if .wakeup i w.future ∈ s.loop.batch then 0 else 1

theorem turnsLeft_le : s.turnsLeft i c w ≤ 2 := by
  unfold turnsLeft
  split
  · split <;> omega
  · split <;> omega

theorem turnsLeft_mono (state : v.state = w.state) (future : v.future = w.future) (descriptor : d.descriptor = c.descriptor)
    (readable : w.state = .pending → .onReadable i c.descriptor w.future ∈ s.loop.batch →
      .onReadable i c.descriptor w.future ∈ t.loop.batch)
    (wakeup : w.state ≠ .pending → .wakeup i w.future ∈ s.loop.batch → .wakeup i w.future ∈ t.loop.batch) :
    t.turnsLeft i d v ≤ s.turnsLeft i c w := by
  unfold turnsLeft
  rw [state, future, descriptor]
  split
  · rename_i pending
    by_cases before : .onReadable i c.descriptor w.future ∈ s.loop.batch
    · apply Nat.le_of_eq
      rw [if_pos before, if_pos (readable pending before)]
    · rw [if_neg before]
      split <;> omega
  · rename_i done
    by_cases before : .wakeup i w.future ∈ s.loop.batch
    · apply Nat.le_of_eq
      rw [if_pos before, if_pos (wakeup done before)]
    · rw [if_neg before]
      split <;> omega

theorem turnsLeft_told (pending : w.state = .pending) (done : v.state ≠ .pending) :
    t.turnsLeft i d v ≤ s.turnsLeft i c w := by
  unfold turnsLeft
  rw [if_pos pending, if_neg done]
  split <;> split <;> omega

def Lingers (s t : AsyncLoop ι) (i : ι) (begun : Nat) (d : AsyncCall) (v : Wait) : Prop :=
  ∃ c w, s.calls i = some c ∧ c.wait = some w ∧ w.future = v.future ∧
    (Heard c w → Heard d v ∧ t.turnsLeft i d v + begun ≤ s.turnsLeft i c w)

theorem Lingers.same (call : s.calls i = some d) (waits : d.wait = some v)
    (readable : v.state = .pending → .onReadable i d.descriptor v.future ∈ s.loop.batch →
      .onReadable i d.descriptor v.future ∈ t.loop.batch)
    (wakeup : v.state ≠ .pending → .wakeup i v.future ∈ s.loop.batch → .wakeup i v.future ∈ t.loop.batch) :
    Lingers s t i 0 d v :=
  ⟨d, v, call, waits, rfl, fun heard => ⟨heard, turnsLeft_mono rfl rfl rfl readable wakeup⟩⟩

theorem cancel_lingers {thrown : Act} (call : s.calls j = some c) (waits : c.wait = some w)
    (call' : (s.cancel j c w thrown).calls i = some d) (waits' : d.wait = some v) :
    Lingers s (s.cancel j c w thrown) i 0 d v := by
  unfold cancel at call' ⊢
  split at call'
  · rename_i pending
    rw [if_pos pending]
    rcases put_calls.mp call' with ⟨rfl, rfl⟩ | ⟨_, other⟩
    · cases waits'
      refine ⟨c, w, call, waits, rfl, fun _ => ⟨.inl ?_, ?_⟩⟩
      · exact nofun
      · rw [Nat.add_zero]
        apply turnsLeft_told pending
        exact nofun
    · exact .same other waits' (fun _ => EventLoop.mem_batch_callSoon) (fun _ => EventLoop.mem_batch_callSoon)
  · rename_i done
    rw [if_neg done]
    rcases put_calls.mp call' with ⟨rfl, rfl⟩ | ⟨_, other⟩
    · cases waits'
      exact ⟨c, w, call, waits, rfl, fun _ => ⟨.inl done, turnsLeft_mono rfl rfl rfl (fun _ => id) (fun _ => id)⟩⟩
    · exact .same other waits' (fun _ => id) (fun _ => id)

theorem select_lingers {events : List (Nat × Callback ι)} (inv : LoopInv s) (stepped : s.step (.select events) = some t)
    (call : t.calls i = some d) (waits : d.wait = some v) : Lingers s t i 1 d v := by
  simp only [step, Option.ite_none_right_eq_some, Option.some.injEq] at stepped
  rcases stepped with ⟨⟨_, spent, found⟩, rfl⟩
  have call : s.calls i = some d := call
  have before := inv.calls i d call
  have wait := before.waits v waits
  have there : ∀ event ∈ events, event ∈ s.loop.readers := by
    intro event member
    exact (List.mem_filter.mp (found.mem_iff.mp member)).1
  have empty : s.loop.batch = [] := by rw [EventLoop.batch, spent, List.take_zero]
  have all : (s.loop.select events).batch = s.loop.ready ++ events.map Prod.snd := by
    rw [EventLoop.select_eq fun event member => inv.live event (there event member), EventLoop.batch, List.take_length]
  refine ⟨d, v, call, waits, rfl, fun heard => ⟨heard, ?_⟩⟩
  unfold turnsLeft
  simp only [empty, all, List.not_mem_nil, if_false]
  split
  · rename_i pending
    have counted := heard.resolve_left fun done => done pending
    have member : (d.descriptor, .onReadable i d.descriptor v.future) ∈ events := by
      apply found.mem_iff.mpr
      apply List.mem_filter.mpr
      exact ⟨wait.watched pending, (readable_iff before.opened call).mpr counted⟩
    apply Nat.le_of_eq
    rw [if_pos (List.mem_append_right _ (List.mem_map_of_mem member))]
  · rename_i done
    apply Nat.le_of_eq
    rw [if_pos (List.mem_append_left _ (wait.due done))]

theorem wakeup_lingers {r : AsyncLoop ι} {future : Nat} (calls : r.calls = s.calls)
    (stays : ∀ cb ∈ s.loop.batch, cb ≠ .wakeup j future → cb ∈ r.loop.batch)
    (call : (r.wakeup j future).calls i = some d) (waits : d.wait = some v) : Lingers s (r.wakeup j future) i 0 d v := by
  rcases wakeup_cases r j future with ⟨c, w, other, asleep, _, woken⟩ | ⟨stale, same⟩
  · rw [woken] at call ⊢
    rcases put_calls.mp call with ⟨rfl, rfl⟩ | ⟨mine, call⟩
    · rw [(woken_call c w).2.1] at waits
      cases waits
    · apply Lingers.same (calls ▸ call) waits
      · exact fun _ member => stays _ member nofun
      · exact fun _ member => stays _ member fun head => mine (Callback.wakeup.inj head).1
  · rw [same] at call ⊢
    apply Lingers.same (calls ▸ call) waits
    · exact fun _ member => stays _ member nofun
    · intro _ member
      refine stays _ member fun head => ?_
      cases head
      exact stale d v call waits rfl

theorem onReadable_lingers {r : AsyncLoop ι} {descriptor future : Nat} (calls : r.calls = s.calls)
    (stays : ∀ cb ∈ s.loop.batch, cb ≠ .onReadable j descriptor future → cb ∈ r.loop.batch)
    (call : (r.onReadable j descriptor future).calls i = some d) (waits : d.wait = some v) :
    Lingers s (r.onReadable j descriptor future) i 0 d v := by
  rcases onReadable_cases r j descriptor future with ⟨c, w, other, asleep, rfl, pending, told⟩ | ⟨stale, same⟩
  · rw [told] at call ⊢
    rcases put_calls.mp call with ⟨rfl, rfl⟩ | ⟨mine, call⟩
    · cases waits
      refine ⟨c, w, calls ▸ other, asleep, rfl, fun _ => ⟨.inl ?_, ?_⟩⟩
      · exact nofun
      · rw [Nat.add_zero]
        apply turnsLeft_told pending
        exact nofun
    · apply Lingers.same (calls ▸ call) waits
      · exact fun _ member => EventLoop.mem_batch_callSoon (stays _ member fun head => mine (Callback.onReadable.inj head).1)
      · exact fun _ member => EventLoop.mem_batch_callSoon (stays _ member nofun)
  · rw [same] at call ⊢
    apply Lingers.same (calls ▸ call) waits
    · intro pending member
      refine stays _ member fun head => ?_
      cases head
      exact stale d v call waits rfl pending
    · exact fun _ member => stays _ member nofun

theorem pop_lingers (inv : LoopInv s) (stepped : s.step .pop = some t) (call : t.calls i = some d)
    (waits : d.wait = some v) :
    Lingers s t i 0 d v := by
  simp only [step, Option.ite_none_right_eq_some] at stepped
  rcases stepped with ⟨idle, stepped⟩
  split at stepped
  · rename_i cb loop next
    cases stepped
    rcases EventLoop.pop_spec next with ⟨_, tail, ready, _, _, same⟩
    split at same
    · cases same
    · cases same
      -- Only the callback that has come next is no longer scheduled.
      have stays (one : Callback ι) (member : one ∈ s.loop.batch) (apart : one ≠ cb) : one ∈ loop.batch := by
        refine (EventLoop.mem_batch_pop next member).resolve_right fun head => ?_
        rw [ready] at head
        exact apart (Option.some.inj head).symm
      cases cb with
      | other =>
        have apart {one : Callback ι} (own : one ≠ .other) (member : one ∈ s.loop.batch) := stays one member own
        exact .same call waits (fun _ => apart fun same => by cases same) (fun _ => apart fun same => by cases same)
      | wakeup j future => exact wakeup_lingers rfl stays call waits
      | onReadable j descriptor future => exact onReadable_lingers rfl stays call waits
  · rename_i loop next
    cases stepped
    rcases EventLoop.pop_spec next with ⟨cb, tail, ready, _, _, same⟩
    split at same
    · rename_i cancelled
      have call : s.calls i = some d := call
      have wait := (inv.calls i d call).waits v waits
      have stays (one : Callback ι) (member : one ∈ s.loop.batch) (live : one ∉ s.loop.cancelled) : one ∈ loop.batch := by
        refine (EventLoop.mem_batch_pop next member).resolve_right fun head => ?_
        rw [ready] at head
        cases head
        exact live cancelled
      apply Lingers.same call waits
      · exact fun pending member => stays _ member (inv.live _ (wait.watched pending))
      · intro _ member
        refine stays _ member fun cancelled => ?_
        rcases inv.plain _ cancelled with ⟨_, _, _, same⟩
        cases same
    · cases same
  · cases stepped

theorem call_fresh (s : AsyncLoop ι) (cb : Callback ι) : (s.call cb).fresh = s.fresh := by
  cases cb with
  | other => rfl
  | onReadable j descriptor future =>
    rcases onReadable_cases s j descriptor future with ⟨c, w, _, _, _, _, told⟩ | ⟨_, same⟩
    · rw [call, told, put]
    · rw [call, same]
  | wakeup j future =>
    rcases wakeup_cases s j future with ⟨c, w, _, _, _, woken⟩ | ⟨_, same⟩
    · rw [call, woken, put]
    · rw [call, same]

theorem fresh_step {label : AsyncLabel ι} (stepped : s.step label = some t) : s.fresh ≤ t.fresh := by
  cases label with
  | start task descriptor url seconds maxRedirects timeoutMs requireHttp3 =>
    simp only [step, Option.ite_none_right_eq_some, Option.some.injEq] at stepped
    rcases stepped with ⟨_, rfl⟩
    exact Nat.le_refl _
  | env task label =>
    simp only [step, Option.bind_eq_bind, Option.bind_eq_some_iff, Option.pure_def, Option.some.injEq] at stepped
    rcases stepped with ⟨_, _, _, _, rfl⟩
    exact Nat.le_refl _
  | act task =>
    simp only [step, Option.bind_eq_bind, Option.bind_eq_some_iff, Option.pure_def, Option.some.injEq,
      Option.ite_none_right_eq_some] at stepped
    rcases stepped with ⟨_, _, _, _, _, rfl⟩
    exact Nat.le_refl _
  | suspend task =>
    simp only [step, Option.bind_eq_bind, Option.bind_eq_some_iff, Option.pure_def, Option.some.injEq,
      Option.ite_none_right_eq_some] at stepped
    rcases stepped with ⟨_, _, _, rfl⟩
    exact Nat.le_succ _
  | finish task =>
    simp only [step, Option.bind_eq_bind, Option.bind_eq_some_iff] at stepped
    rcases stepped with ⟨_, _, stepped⟩
    split at stepped
    · simp only [Option.ite_none_right_eq_some, Option.pure_def, Option.some.injEq] at stepped
      rcases stepped with ⟨_, rfl⟩
      exact Nat.le_refl _
    · cases stepped
  | cancel task thrown =>
    simp only [step, Option.bind_eq_bind, Option.bind_eq_some_iff, Option.pure_def, Option.some.injEq,
      Option.ite_none_right_eq_some] at stepped
    rcases stepped with ⟨_, _, _, _, _, rfl⟩
    unfold cancel
    split
    · exact Nat.le_refl _
    · exact Nat.le_refl _
  | callSoon =>
    cases stepped
    exact Nat.le_refl _
  | select events =>
    simp only [step, Option.ite_none_right_eq_some, Option.some.injEq] at stepped
    rcases stepped with ⟨_, rfl⟩
    exact Nat.le_refl _
  | pop =>
    simp only [step, Option.ite_none_right_eq_some] at stepped
    rcases stepped with ⟨_, stepped⟩
    split at stepped
    · rename_i cb loop _
      cases stepped
      exact Nat.le_of_eq (call_fresh { s with loop } cb).symm
    · cases stepped
      exact Nat.le_refl _
    · cases stepped

/-- No step but the start of a turn takes one from a task, and none more than that. -/
theorem step_lingers {label : AsyncLabel ι} (inv : LoopInv s) (stepped : s.step label = some t) (call : t.calls i = some d)
    (waits : d.wait = some v) (before : v.future < s.fresh) : Lingers s t i (if label.selects then 1 else 0) d v := by
  cases label with
  | start task descriptor url seconds maxRedirects timeoutMs requireHttp3 =>
    simp only [step, Option.ite_none_right_eq_some, Option.some.injEq] at stepped
    rcases stepped with ⟨_, rfl⟩
    rcases put_calls.mp call with ⟨rfl, rfl⟩ | ⟨_, other⟩
    · cases waits
    · exact .same other waits (fun _ => id) (fun _ => id)
  | env task label =>
    simp only [step, Option.bind_eq_bind, Option.bind_eq_some_iff, Option.pure_def, Option.some.injEq] at stepped
    rcases stepped with ⟨c, own, o, moved, rfl⟩
    rcases put_calls.mp call with ⟨rfl, rfl⟩ | ⟨_, other⟩
    · simp only [Owned.step, Option.ite_none_right_eq_some, Option.map_eq_some_iff] at moved
      rcases moved with ⟨others, call, moved, rfl⟩
      refine ⟨c, v, own, waits, rfl, fun heard => ⟨?_, ?_⟩⟩
      · exact heard.imp_right (Call.counted_step (Owned.others_drain others) moved)
      · exact turnsLeft_mono rfl rfl rfl (fun _ => id) (fun _ => id)
    · exact .same other waits (fun _ => id) (fun _ => id)
  | act task =>
    simp only [step, Option.bind_eq_bind, Option.bind_eq_some_iff, Option.pure_def, Option.some.injEq,
      Option.ite_none_right_eq_some] at stepped
    rcases stepped with ⟨c, own, ⟨runs, _⟩, o, _, rfl⟩
    rcases put_calls.mp call with ⟨rfl, rfl⟩ | ⟨_, other⟩
    · exact absurd runs ((inv.calls i c own).waits v waits).idle
    · exact .same other waits (fun _ => id) (fun _ => id)
  | suspend task =>
    simp only [step, Option.bind_eq_bind, Option.bind_eq_some_iff, Option.pure_def, Option.some.injEq,
      Option.ite_none_right_eq_some] at stepped
    rcases stepped with ⟨c, own, _, rfl⟩
    rcases put_calls.mp call with ⟨rfl, rfl⟩ | ⟨_, other⟩
    · cases waits
      exact absurd before (Nat.lt_irrefl _)
    · exact .same other waits (fun _ => id) (fun _ => id)
  | finish task =>
    simp only [step, Option.bind_eq_bind, Option.bind_eq_some_iff] at stepped
    rcases stepped with ⟨c, own, stepped⟩
    split at stepped
    · simp only [Option.ite_none_right_eq_some, Option.pure_def, Option.some.injEq] at stepped
      rcases stepped with ⟨_, rfl⟩
      have mine : i ≠ task := by
        rintro rfl
        have gone := (Function.update_self _ _ _).symm.trans call
        cases gone
      exact .same ((Function.update_of_ne mine _ _).symm.trans call) waits (fun _ => id) (fun _ => id)
    · cases stepped
  | cancel task thrown =>
    simp only [step, Option.bind_eq_bind, Option.bind_eq_some_iff, Option.pure_def, Option.some.injEq,
      Option.ite_none_right_eq_some] at stepped
    rcases stepped with ⟨c, own, w, asleep, _, rfl⟩
    exact cancel_lingers own asleep call waits
  | callSoon =>
    cases stepped
    exact .same call waits (fun _ => EventLoop.mem_batch_callSoon) (fun _ => EventLoop.mem_batch_callSoon)
  | select events => exact select_lingers inv stepped call waits
  | pop => exact pop_lingers inv stepped call waits

theorem run_lingers {labels : List (AsyncLabel ι)} (inv : LoopInv s) (ran : machine.run s labels = some t)
    (call : t.calls i = some d) (waits : d.wait = some v) (before : v.future < s.fresh) :
    Lingers s t i (labels.countP AsyncLabel.selects) d v := by
  induction labels using List.reverseRecOn generalizing t d v with
  | nil =>
    cases ran
    exact .same call waits (fun _ => id) (fun _ => id)
  | append_singleton labels label ih =>
    rcases Machine.run_snoc.mp ran with ⟨r, past, stepped⟩
    have inv' : LoopInv r := Machine.invariant LoopInv inv (fun _ _ _ inv stepped => step_inv inv stepped) past
    have grown : s.fresh ≤ r.fresh := Machine.invariant (fun r : AsyncLoop ι => s.fresh ≤ r.fresh) (Nat.le_refl _)
      (fun _ _ _ grown stepped => Nat.le_trans grown (fresh_step stepped)) past
    rcases step_lingers inv' stepped call waits (Nat.lt_of_lt_of_le before grown) with ⟨c, w, call', waits', same, last⟩
    rcases ih past call' waits' (same ▸ before) with ⟨c₀, w₀, call₀, waits₀, same₀, first⟩
    refine ⟨c₀, w₀, call₀, waits₀, same₀.trans same, fun heard => ?_⟩
    rcases first heard with ⟨heard, first⟩
    rcases last heard with ⟨heard, last⟩
    refine ⟨heard, ?_⟩
    rw [List.countP_append, List.countP_singleton]
    omega

theorem call_counted (counted : s.loop.Counted) (cb : Callback ι) : (s.call cb).loop.Counted := by
  cases cb with
  | other => exact counted
  | onReadable j descriptor future =>
    rcases onReadable_cases s j descriptor future with ⟨c, w, _, _, _, _, told⟩ | ⟨_, same⟩
    · rw [call, told]
      exact EventLoop.Counted.callSoon (l := s.loop.removeReader descriptor) counted
    · rw [call, same]
      exact counted
  | wakeup j future =>
    rcases wakeup_cases s j future with ⟨c, w, _, _, _, woken⟩ | ⟨_, same⟩
    · rw [call, woken]
      exact counted
    · rw [call, same]
      exact counted

theorem step_counted {label : AsyncLabel ι} (counted : s.loop.Counted) (stepped : s.step label = some t) :
    t.loop.Counted := by
  cases label with
  | start task descriptor url seconds maxRedirects timeoutMs requireHttp3 =>
    simp only [step, Option.ite_none_right_eq_some, Option.some.injEq] at stepped
    rcases stepped with ⟨_, rfl⟩
    exact counted
  | env task label =>
    simp only [step, Option.bind_eq_bind, Option.bind_eq_some_iff, Option.pure_def, Option.some.injEq] at stepped
    rcases stepped with ⟨_, _, _, _, rfl⟩
    exact counted
  | act task =>
    simp only [step, Option.bind_eq_bind, Option.bind_eq_some_iff, Option.pure_def, Option.some.injEq,
      Option.ite_none_right_eq_some] at stepped
    rcases stepped with ⟨_, _, _, _, _, rfl⟩
    exact counted
  | suspend task =>
    simp only [step, Option.bind_eq_bind, Option.bind_eq_some_iff, Option.pure_def, Option.some.injEq,
      Option.ite_none_right_eq_some] at stepped
    rcases stepped with ⟨_, _, _, rfl⟩
    exact counted
  | finish task =>
    simp only [step, Option.bind_eq_bind, Option.bind_eq_some_iff] at stepped
    rcases stepped with ⟨_, _, stepped⟩
    split at stepped
    · simp only [Option.ite_none_right_eq_some, Option.pure_def, Option.some.injEq] at stepped
      rcases stepped with ⟨_, rfl⟩
      exact counted
    · cases stepped
  | cancel task thrown =>
    simp only [step, Option.bind_eq_bind, Option.bind_eq_some_iff, Option.pure_def, Option.some.injEq,
      Option.ite_none_right_eq_some] at stepped
    rcases stepped with ⟨_, _, _, _, _, rfl⟩
    unfold cancel
    split
    · exact counted.callSoon
    · exact counted
  | callSoon =>
    cases stepped
    exact counted.callSoon
  | select events =>
    simp only [step, Option.ite_none_right_eq_some, Option.some.injEq] at stepped
    rcases stepped with ⟨_, rfl⟩
    exact EventLoop.select_counted
  | pop =>
    simp only [step, Option.ite_none_right_eq_some] at stepped
    rcases stepped with ⟨_, stepped⟩
    split at stepped
    · rename_i cb loop next
      cases stepped
      exact call_counted (s := { s with loop }) (counted.pop next) cb
    · rename_i loop next
      cases stepped
      exact counted.pop next
    · cases stepped

theorem turns (counted : s.loop.Counted) (idle : s.running = none) :
    (s.step .pop).isSome ∨ ∃ events, (s.step (.select events)).isSome := by
  rcases counted.turns with spent | ⟨next, rest, popped⟩
  · refine .inr ⟨s.loop.readers.filter fun reader => s.readable reader.1, ?_⟩
    simp [step, idle, spent]
  · refine .inl ?_
    cases next with
    | none => simp [step, idle, popped]
    | some cb => simp [step, idle, popped]

structure Attentive (s : AsyncLoop ι) (i : ι) (c : AsyncCall) (w : Wait) : Prop where
  noticed : Heard c w ∨ Owned.NothingNew c.owned ∨ Cronet.Native.signals c.owned.call.net = true
  prompt : Heard c w → ∀ labels t d v, machine.run s labels = some t → t.calls i = some d → d.wait = some v →
    v.future = w.future → labels.countP AsyncLabel.selects ≤ 2
  turns : s.running = none → (s.step .pop).isSome ∨ ∃ events, (s.step (.select events)).isSome

/-- Whatever other tasks and callbacks there are, a task that has something to see goes on within two turns of the loop,
    which can always turn; and while it has not, nothing has happened that it has not seen, or its signal is on the way. -/
theorem loop_attentive {labels : List (AsyncLabel ι)} (ran : machine.run initial labels = some s) (call : s.calls i = some c)
    (waits : c.wait = some w) : Attentive s i c w := by
  have inv := run_inv ran
  have before := inv.calls i c call
  have wait := before.waits w waits
  constructor
  case noticed =>
    have waiting : c.owned.waiting := by
      have blocked := wait.blocked
      rw [Owned.blocked, Bool.or_eq_true, decide_eq_true_iff, decide_eq_true_iff] at blocked
      exact blocked
    rcases before.started.reached.telling.awake waiting with new | heard | signals
    · exact .inr (.inl new)
    · exact .inl (.inr heard)
    · exact .inr (.inr signals)
  case prompt =>
    intro heard labels t d v ran call' waits' same
    rcases run_lingers inv ran call' waits' (same ▸ wait.known) with ⟨c', w', call'', waits'', _, told⟩
    rw [call] at call''
    cases call''
    rw [waits] at waits''
    cases waits''
    have left := (told heard).2
    have most : s.turnsLeft i c w ≤ 2 := turnsLeft_le
    omega
  case turns =>
    exact turns (Machine.invariant (fun s : AsyncLoop ι => s.loop.Counted) (Nat.le_refl _)
      (fun _ _ _ counted stepped => step_counted counted stepped) ran)

/-- The headers of a page have come, and the loop has not turned since. -/
theorem loop_attentive_signalled :
    ∃ labels s c w, machine.run (initial : AsyncLoop Nat) labels = some s ∧ s.calls 0 = some c ∧ c.wait = some w ∧
      Heard c w ∧
      Attentive s 0 c w := by
  let labels : List (AsyncLabel Nat) :=
    [.start 0 7 "http://a/" "30" 20 30000 false, .env 0 (.registerCall true), .env 0 .construct, .env 0 .attachRequest,
      .env 0 .start, .act 0, .act 0, .suspend 0, .env 0 (.task none),
      .env 0 (.callback (.onResponseStarted ⟨200, "OK", none, false, "h2", ""⟩)), .env 0 .op, .env 0 .op, .env 0 .op,
        .env 0 .op]
  have signalled : (machine.run (initial : AsyncLoop Nat) labels).bind (fun s => (s.calls 0).bind fun c =>
      c.wait.map fun w => (w.future, c.owned.call.shared.completionFd)) = some (0, 1) := by decide
  rcases Option.bind_eq_some_iff.mp signalled with ⟨s, ran, asked⟩
  rcases Option.bind_eq_some_iff.mp asked with ⟨c, call, asked⟩
  rcases Option.map_eq_some_iff.mp asked with ⟨w, waits, counted⟩
  have heard : Heard c w := .inr (Nat.lt_of_lt_of_eq Nat.one_pos (Prod.mk.inj counted).2.symm)
  exact ⟨labels, s, c, w, ran, call, waits, heard, loop_attentive ran call waits⟩

end AsyncLoop

end Cronet.Session
