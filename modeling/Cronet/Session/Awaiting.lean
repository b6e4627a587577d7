import Cronet.Native.Posting
import Cronet.Session.AsyncLoop
import Cronet.Session.Wakeups

namespace Cronet.Native.Call

theorem perform_counted {c : Call} {ops : List NetOp} (counted : 0 < c.shared.completionFd) :
    0 < (c.perform ops).shared.completionFd := by
  cases ops with
  | nil => exact counted
  | cons op rest =>
    by_cases signal : op = .signalProgress
    · rw [signal]
      exact signalProgress_positive c.shared
    · exact Nat.lt_of_lt_of_eq counted (exec_completionFd signal).symm

theorem counted_step {c d : Call} {label : Label} (other : label ≠ .drain) (stepped : c.step label = some d)
    (counted : 0 < c.shared.completionFd) : 0 < d.shared.completionFd := by
  cases step_of stepped with
  | aside aside =>
    rw [aside.signals other]
    exact counted
  | op net => exact perform_counted counted
  | task idle | callback idle => exact perform_counted counted

theorem returned_step {c d : Call} {label : Label} (returned : c.starter = .returned) (stepped : c.step label = some d) :
    d.starter = .returned := by
  rcases starter_step (.inr returned) stepped with ⟨_, attached, _⟩ | same
  · rw [returned] at attached
    cases attached
  · exact same.trans returned

end Cronet.Native.Call

namespace Cronet.Session

open Cronet.Native (Call Label)

namespace AsyncCall

variable {c : AsyncCall} {o : Owned}

def Reached (c : AsyncCall) : Prop :=
  ∃ url seconds maxRedirects timeoutMs requireHttp3 labels,
    Owned.machine.run (.initial url maxRedirects .asyncRequest seconds timeoutMs requireHttp3) labels = some c.owned

structure Started (c : AsyncCall) : Prop where
  reached : c.Reached
  kind : c.owned.owner.kind = .asyncRequest
  returned : c.owned.owner.pc = .headers .drain ∨ c.owned.call.starter = .returned

theorem Reached.step (reached : c.Reached) {label : OwnedLabel} (stepped : c.owned.step label = some o)
    {wait : Option Wait} :
    Reached ⟨c.descriptor, o, wait⟩ := by
  rcases reached with ⟨url, seconds, maxRedirects, timeoutMs, requireHttp3, labels, ran⟩
  exact ⟨url, seconds, maxRedirects, timeoutMs, requireHttp3, labels ++ [label],
    Machine.run_snoc.mpr ⟨c.owned, ran, stepped⟩⟩

theorem Started.step (started : c.Started) {label : OwnedLabel} (stepped : c.owned.step label = some o)
    {wait : Option Wait} :
    Started ⟨c.descriptor, o, wait⟩ := by
  refine ⟨started.reached.step stepped, ?_, ?_⟩
  · cases label with
    | env label =>
      simp only [Owned.step, Option.ite_none_right_eq_some, Option.map_eq_some_iff] at stepped
      rcases stepped with ⟨_, call, _, rfl⟩
      exact started.kind
    | owner act =>
      simp only [Owned.step, Option.ite_none_right_eq_some] at stepped
      exact (Owned.act_spec stepped.2).kind.trans started.kind
  · cases label with
    | env label =>
      simp only [Owned.step, Option.ite_none_right_eq_some, Option.map_eq_some_iff] at stepped
      rcases stepped with ⟨_, call, moved, rfl⟩
      exact started.returned.imp_right fun returned => Call.returned_step returned moved
    | owner act =>
      simp only [Owned.step, Option.ite_none_right_eq_some] at stepped
      exact .inr (Machine.invariant (fun call : Call => call.starter = .returned) stepped.1
        (fun _ _ _ returned moved => Call.returned_step returned moved) (Owned.act_spec stepped.2).played)

theorem Started.waiting (started : c.Started) (blocked : c.owned.blocked = true) : c.owned.call.starter = .returned := by
  rw [Owned.blocked, Bool.or_eq_true, decide_eq_true_iff, decide_eq_true_iff] at blocked
  apply started.returned.resolve_left
  intro drain
  rw [drain] at blocked
  rcases blocked with poll | poll
  · cases poll
  · cases poll

/-- A task whose descriptor is readable goes on as the owner of a single call does. -/
theorem resumed_step (started : c.Started) (blocked : c.owned.blocked = true)
    (heard : 0 < c.owned.call.shared.completionFd) : c.owned.step (.owner .proceed) = some c.resumed.owned := by
  have returned := started.waiting blocked
  rw [Owned.blocked, Bool.or_eq_true, decide_eq_true_iff, decide_eq_true_iff] at blocked
  have firstTurn : c.owned.owner.firstTurn = .drain := if_pos started.kind
  rcases blocked with poll | poll
  · simp only [Owned.step, if_pos returned, Owned.act, Owned.proceed, poll, if_pos heard, firstTurn, resumed, if_true]
  · simp only [Owned.step, if_pos returned, Owned.act, Owned.proceed, poll, if_pos heard, firstTurn, resumed,
      reduceCtorEq, if_false]

theorem thrown_step (started : c.Started) (blocked : c.owned.blocked = true) {interruption : Act}
    (allowed : interruption = .cancelled ∨ interruption = .expire ∧ 0 ≤ c.owned.owner.timeoutMs) :
    c.owned.step (.owner interruption) = some (c.thrown interruption).owned := by
  have returned := started.waiting blocked
  have kind := started.kind
  rw [Owned.blocked, Bool.or_eq_true, decide_eq_true_iff, decide_eq_true_iff] at blocked
  rcases allowed with rfl | ⟨rfl, limited⟩
  · have awaits : c.owned.owner.kind = .asyncRequest ∧ (c.owned.owner.pc = .headers .poll ∨
      c.owned.owner.pc = .body .poll) :=
      ⟨kind, blocked⟩
    simp only [Owned.step, if_pos returned, Owned.act, if_pos awaits, thrown, reduceCtorEq, if_false]
  · have unlimited : ¬c.owned.owner.timeoutMs < 0 := by omega
    rcases blocked with poll | poll
    · simp only [Owned.step, if_pos returned, Owned.act, Owned.expire, if_neg unlimited, poll, thrown, if_true,
        Owner.headersTimedOut, Owner.fail, kind, reduceCtorEq, if_false]
    · simp only [Owned.step, if_pos returned, Owned.act, Owned.expire, if_neg unlimited, poll, thrown, if_true,
        Owner.bodyTimedOut, kind]

end AsyncCall

namespace AsyncLoop

variable {ι : Type} {s t : AsyncLoop ι} {i j : ι} {c d : AsyncCall} {w : Wait}

/-- A task at its `await`: its descriptor is watched until it is to be woken, and it has the reason to wake up. -/
structure WaitInv (s : AsyncLoop ι) (i : ι) (c : AsyncCall) (w : Wait) : Prop where
  idle : s.running ≠ some i
  blocked : c.owned.blocked = true
  known : w.future < s.fresh
  watched : w.state = .pending → (c.descriptor, .onReadable i c.descriptor w.future) ∈ s.loop.readers
  quiet : w.state = .pending → w.interruption = none ∧ .wakeup i w.future ∉ s.loop.ready
  due : w.state ≠ .pending → .wakeup i w.future ∈ s.loop.ready
  heard : w.state = .resolved → 0 < c.owned.call.shared.completionFd
  interrupted : w.state = .cancelled → w.interruption ≠ none
  allowed : ∀ interruption ∈ w.interruption,
    interruption = .cancelled ∨ interruption = .expire ∧ 0 ≤ c.owned.owner.timeoutMs

structure CallInv (s : AsyncLoop ι) (i : ι) (c : AsyncCall) : Prop where
  started : c.Started
  opened : s.descriptors c.descriptor = some i
  running : c.wait = none → s.running = some i
  waits : ∀ w, c.wait = some w → WaitInv s i c w

structure LoopInv (s : AsyncLoop ι) : Prop where
  calls : ∀ i c, s.calls i = some c → CallInv s i c
  owners : ∀ descriptor i, s.descriptors descriptor = some i → ∃ c, s.calls i = some c ∧ c.descriptor = descriptor
  running : ∀ i, s.running = some i → ∃ c, s.calls i = some c ∧ c.wait = none
  readers : ∀ descriptor cb, (descriptor, cb) ∈ s.loop.readers → ∃ i c w, s.calls i = some c ∧ c.descriptor = descriptor ∧
    c.wait = some w ∧ cb = .onReadable i descriptor w.future ∧ w.state ≠ .resolved
  live : ∀ reader ∈ s.loop.readers, reader.2 ∉ s.loop.cancelled
  scheduled : ∀ i descriptor future, .onReadable i descriptor future ∈ s.loop.ready →
    .onReadable i descriptor future ∈ s.loop.cancelled ∨
      (descriptor, .onReadable i descriptor future) ∈ s.loop.readers ∧ s.readable descriptor = true
  known : ∀ i descriptor future, .onReadable i descriptor future ∈ s.loop.cancelled → future < s.fresh
  woken : ∀ i future, .wakeup i future ∈ s.loop.ready → future < s.fresh
  plain : ∀ cb ∈ s.loop.cancelled, ∃ i descriptor future, cb = .onReadable i descriptor future

theorem CallInv.frame (inv : CallInv s i c) (opened : t.descriptors c.descriptor = s.descriptors c.descriptor)
    (running : t.running = some i ↔ s.running = some i)
    (readers : ∀ future, (c.descriptor, .onReadable i c.descriptor future) ∈ s.loop.readers →
      (c.descriptor, .onReadable i c.descriptor future) ∈ t.loop.readers)
    (ready : ∀ w, c.wait = some w → (.wakeup i w.future ∈ t.loop.ready ↔ .wakeup i w.future ∈ s.loop.ready))
    (fresh : s.fresh ≤ t.fresh) : CallInv t i c := by
  refine ⟨inv.started, opened.trans inv.opened, fun none => running.mpr (inv.running none), fun w waits => ?_⟩
  have wait := inv.waits w waits
  exact {
    idle := fun runs => wait.idle (running.mp runs)
    blocked := wait.blocked
    known := Nat.lt_of_lt_of_le wait.known fresh
    watched := fun pending => readers _ (wait.watched pending)
    quiet := fun pending => ⟨(wait.quiet pending).1, fun member => (wait.quiet pending).2 ((ready w waits).mp member)⟩
    due := fun done => (ready w waits).mpr (wait.due done)
    heard := wait.heard
    interrupted := wait.interrupted
    allowed := wait.allowed }

theorem LoopInv.apart (inv : LoopInv s) (first : s.calls i = some c) (second : s.calls j = some d)
    (same : c.descriptor = d.descriptor) : i = j := by
  have one := (inv.calls i c first).opened
  rw [same, (inv.calls j d second).opened] at one
  exact (Option.some.inj one).symm

theorem LoopInv.reader_of (inv : LoopInv s) (call : s.calls i = some c) {cb : Callback ι}
    (member : (c.descriptor, cb) ∈ s.loop.readers) :
    ∃ w, c.wait = some w ∧ cb = .onReadable i c.descriptor w.future ∧ w.state ≠ .resolved := by
  rcases inv.readers c.descriptor cb member with ⟨j, d, w, call', same, waits, rfl, open_⟩
  obtain rfl := inv.apart call' call same
  rw [call] at call'
  cases call'
  exact ⟨w, waits, rfl, open_⟩

theorem LoopInv.unwatched (inv : LoopInv s) (call : s.calls i = some c) (none : c.wait = none) (cb : Callback ι) :
    (c.descriptor, cb) ∉ s.loop.readers := by
  intro member
  rcases inv.reader_of call member with ⟨w, waits, _⟩
  rw [none] at waits
  cases waits

theorem LoopInv.apart_of (inv : LoopInv s) (first : s.calls i = some c) (second : s.calls j = some d) (other : j ≠ i) :
    d.descriptor ≠ c.descriptor := fun same => other (inv.apart second first same)

theorem readable_iff {descriptor : Nat} (opened : s.descriptors descriptor = some i) (call : s.calls i = some c) :
    s.readable descriptor = true ↔ 0 < c.owned.call.shared.completionFd := by
  simp [readable, opened, call]

/-- Only the loop has changed, and in it nothing of the tasks but callbacks that have been scheduled or dropped. -/
theorem LoopInv.schedule {loop : EventLoop (Callback ι)} (inv : LoopInv s) (readers : loop.readers = s.loop.readers)
    (cancelled : loop.cancelled = s.loop.cancelled)
    (fewer : ∀ i future, .wakeup i future ∈ loop.ready → .wakeup i future ∈ s.loop.ready)
    (kept : ∀ i c w, s.calls i = some c → c.wait = some w → .wakeup i w.future ∈ s.loop.ready →
      .wakeup i w.future ∈ loop.ready)
    (scheduled : ∀ i descriptor future, .onReadable i descriptor future ∈ loop.ready →
      .onReadable i descriptor future ∈ s.loop.ready ∨
        (descriptor, .onReadable i descriptor future) ∈ s.loop.readers ∧ s.readable descriptor = true) :
    LoopInv { s with loop } where
  calls j d other := (inv.calls j d other).frame rfl Iff.rfl (fun _ member => readers ▸ member)
    (fun w waits => ⟨fewer j w.future, kept j d w other waits⟩) (Nat.le_refl _)
  owners := inv.owners
  running := inv.running
  readers descriptor cb member := inv.readers descriptor cb (readers ▸ member)
  live reader member := cancelled ▸ inv.live reader (readers ▸ member)
  scheduled j descriptor future member := by
    show _ ∈ loop.cancelled ∨ _ ∈ loop.readers ∧ _
    rw [cancelled, readers]
    rcases scheduled j descriptor future member with before | found
    · exact inv.scheduled j descriptor future before
    · exact .inr found
  known j descriptor future member := inv.known j descriptor future (cancelled ▸ member)
  woken j future member := inv.woken j future (fewer j future member)
  plain cb member := inv.plain cb (cancelled ▸ member)

theorem callSoon_inv (inv : LoopInv s) : LoopInv { s with loop := s.loop.callSoon .other } :=
  inv.schedule rfl rfl (fun _ _ member => by simpa using member) (fun _ _ _ _ _ member => by simpa using member)
    fun _ _ _ member => .inl (by simpa using member)

structure Removed (s : AsyncLoop ι) (descriptor : Nat) : Prop where
  live : ∀ reader ∈ (s.loop.removeReader descriptor).readers, reader.2 ∉ (s.loop.removeReader descriptor).cancelled
  known : ∀ i at_ future, .onReadable i at_ future ∈ (s.loop.removeReader descriptor).cancelled → future < s.fresh
  plain : ∀ cb ∈ (s.loop.removeReader descriptor).cancelled, ∃ i at_ future, cb = .onReadable i at_ future

theorem LoopInv.removed (inv : LoopInv s) (descriptor : Nat) : Removed s descriptor := by
  constructor
  · intro reader member cancelled
    rcases EventLoop.mem_removeReader.mp member with ⟨member, apart⟩
    rcases EventLoop.mem_removeReader_cancelled.mp cancelled with gone | before
    · rcases inv.readers reader.1 reader.2 member with ⟨_, _, _, _, _, _, one, _⟩
      rcases inv.readers descriptor reader.2 gone with ⟨_, _, _, _, _, _, two, _⟩
      rw [one] at two
      exact apart (Callback.onReadable.inj two).2.1
    · exact inv.live reader member before
  · intro i at_ future cancelled
    rcases EventLoop.mem_removeReader_cancelled.mp cancelled with gone | before
    · rcases inv.readers descriptor _ gone with ⟨j, c, w, call, _, waits, same, _⟩
      cases same
      exact ((inv.calls _ c call).waits w waits).known
    · exact inv.known i at_ future before
  · intro cb cancelled
    rcases EventLoop.mem_removeReader_cancelled.mp cancelled with gone | before
    · rcases inv.readers descriptor cb gone with ⟨j, _, w, _, _, _, same, _⟩
      exact ⟨j, descriptor, w.future, same⟩
    · exact inv.plain cb before

theorem LoopInv.scheduled_removed (inv : LoopInv s) {descriptor at_ future : Nat}
    (member : .onReadable j at_ future ∈ s.loop.ready) :
    .onReadable j at_ future ∈ (s.loop.removeReader descriptor).cancelled ∨
      (at_, .onReadable j at_ future) ∈ (s.loop.removeReader descriptor).readers ∧ s.readable at_ = true := by
  rcases inv.scheduled j at_ future member with cancelled | ⟨reader, readable⟩
  · exact .inl (EventLoop.mem_removeReader_cancelled.mpr (.inr cancelled))
  · by_cases same : at_ = descriptor
    · exact .inl (EventLoop.mem_removeReader_cancelled.mpr (.inl (same ▸ reader)))
    · exact .inr ⟨EventLoop.mem_removeReader.mpr ⟨reader, same⟩, readable⟩

theorem CallInv.woken (inv : CallInv s i c) (waits : c.wait = some w) (done : w.state ≠ .pending) :
    ∃ label, c.owned.step (.owner label) = some (c.woken w).owned := by
  have wait := inv.waits w waits
  cases interruption : w.interruption with
  | some thrown =>
    refine ⟨thrown, ?_⟩
    rw [AsyncCall.woken, interruption]
    exact AsyncCall.thrown_step inv.started wait.blocked (wait.allowed thrown interruption)
  | none =>
    have resolved : w.state = .resolved := by
      cases state : w.state with
      | pending => exact absurd state done
      | resolved => rfl
      | cancelled => exact absurd interruption (wait.interrupted state)
    refine ⟨.proceed, ?_⟩
    rw [AsyncCall.woken, interruption]
    exact AsyncCall.resumed_step inv.started wait.blocked (wait.heard resolved)

theorem woken_call (c : AsyncCall) (w : Wait) : (c.woken w).descriptor = c.descriptor ∧ (c.woken w).wait = none ∧
    (c.woken w).owned.call = c.owned.call := by
  unfold AsyncCall.woken
  split
  · exact ⟨rfl, rfl, rfl⟩
  · exact ⟨rfl, rfl, rfl⟩

theorem initial_inv : LoopInv (initial : AsyncLoop ι) := by
  constructor <;> simp [initial, EventLoop.empty]

variable [DecidableEq ι]

theorem LoopInv.move (inv : LoopInv s) (call : s.calls i = some c) {o : Owned}
    (started : AsyncCall.Started { c with owned := o })
    (kept : ∀ w, c.wait = some w → o.owner = c.owned.owner ∧
      (0 < c.owned.call.shared.completionFd → 0 < o.call.shared.completionFd)) :
    LoopInv (s.put i { c with owned := o }) := by
  have before := inv.calls i c call
  constructor
  case calls =>
    intro j d other
    by_cases same : j = i
    · subst same
      simp only [put, Function.update_self, Option.some.injEq] at other
      subst other
      refine ⟨started, before.opened, before.running, fun w waits => ?_⟩
      have wait := before.waits w waits
      rcases kept w waits with ⟨owner, counted⟩
      have blocked : o.blocked = c.owned.blocked := by rw [Owned.blocked, owner, Owned.blocked]
      refine { wait with
        blocked := blocked.trans wait.blocked
        heard := fun resolved => counted (wait.heard resolved)
        allowed := ?_ }
      rw [owner]
      exact wait.allowed
    · simp only [put, Function.update_of_ne same] at other
      exact (inv.calls j d other).frame rfl Iff.rfl (fun _ => id) (fun _ _ => Iff.rfl) (Nat.le_refl _)
  case owners =>
    intro descriptor j opened
    rcases inv.owners descriptor j opened with ⟨d, other, same⟩
    by_cases mine : j = i
    · subst mine
      rw [call] at other
      cases other
      exact ⟨_, Function.update_self _ _ _, same⟩
    · exact ⟨d, (Function.update_of_ne mine _ _).trans other, same⟩
  case running =>
    intro j runs
    rcases inv.running j runs with ⟨d, other, none⟩
    by_cases mine : j = i
    · subst mine
      rw [call] at other
      cases other
      exact ⟨_, Function.update_self _ _ _, none⟩
    · exact ⟨d, (Function.update_of_ne mine _ _).trans other, none⟩
  case readers =>
    intro descriptor cb member
    rcases inv.readers descriptor cb member with ⟨j, d, w, other, rest⟩
    by_cases mine : j = i
    · subst mine
      rw [call] at other
      cases other
      exact ⟨_, _, w, Function.update_self _ _ _, rest⟩
    · exact ⟨j, d, w, (Function.update_of_ne mine _ _).trans other, rest⟩
  case scheduled =>
    intro j descriptor future member
    refine (inv.scheduled j descriptor future member).imp_right fun ⟨reader, readable⟩ => ⟨reader, ?_⟩
    rcases inv.readers descriptor _ reader with ⟨k, d, w, other, same, waits, _⟩
    have opened := (inv.calls k d other).opened
    rw [same] at opened
    have counted := (readable_iff opened other).mp readable
    have opened : (s.put i { c with owned := o }).descriptors descriptor = some k := opened
    by_cases mine : k = i
    · subst mine
      rw [call] at other
      cases other
      have moved : (s.put k { c with owned := o }).calls k = some { c with owned := o } := Function.update_self _ _ _
      exact (readable_iff opened moved).mpr ((kept w waits).2 counted)
    · have stays : (s.put i { c with owned := o }).calls k = some d := (Function.update_of_ne mine _ _).trans other
      exact (readable_iff opened stays).mpr counted
  case live => exact inv.live
  case known => exact inv.known
  case woken => exact inv.woken
  case plain => exact inv.plain

theorem env_inv {label : Label} (inv : LoopInv s) (stepped : s.step (.env i label) = some t) : LoopInv t := by
  simp only [step, Option.bind_eq_bind, Option.bind_eq_some_iff, Option.pure_def, Option.some.injEq] at stepped
  rcases stepped with ⟨c, call, o, moved, rfl⟩
  refine inv.move call ((inv.calls i c call).started.step moved) fun w waits => ?_
  simp only [Owned.step, Option.ite_none_right_eq_some, Option.map_eq_some_iff] at moved
  rcases moved with ⟨other, call, moved, rfl⟩
  exact ⟨rfl, Call.counted_step (Owned.others_drain other) moved⟩

theorem act_inv (inv : LoopInv s) (stepped : s.step (.act i) = some t) : LoopInv t := by
  simp only [step, Option.bind_eq_bind, Option.bind_eq_some_iff, Option.pure_def, Option.some.injEq,
    Option.ite_none_right_eq_some] at stepped
  rcases stepped with ⟨c, call, ⟨runs, _⟩, o, moved, rfl⟩
  refine inv.move call ((inv.calls i c call).started.step moved) fun w waits => ?_
  exact absurd runs ((inv.calls i c call).waits w waits).idle

theorem put_calls : (s.put i c).calls j = some d ↔ j = i ∧ c = d ∨ j ≠ i ∧ s.calls j = some d := by
  by_cases same : j = i
  · subst same
    simp [put]
  · simp [put, same]

theorem readable_put {r : AsyncLoop ι} (calls : r.calls = s.calls) (descriptors : r.descriptors = s.descriptors)
    (call : s.calls i = some c) (same : d.owned.call.shared.completionFd = c.owned.call.shared.completionFd)
    (descriptor : Nat) :
    (r.put i d).readable descriptor = s.readable descriptor := by
  simp only [readable, put, calls, descriptors]
  cases s.descriptors descriptor with
  | none => rfl
  | some k =>
    by_cases mine : k = i
    · subst mine
      simp only [Option.bind_some, Function.update_self, call, same]
    · simp only [Option.bind_some, Function.update_of_ne mine]

theorem LoopInv.owners_put {r : AsyncLoop ι} (inv : LoopInv s) (calls : r.calls = s.calls) (call : s.calls i = some c)
    (same : d.descriptor = c.descriptor) {descriptor : Nat} (opened : s.descriptors descriptor = some j) :
    ∃ e, (r.put i d).calls j = some e ∧ e.descriptor = descriptor := by
  rcases inv.owners descriptor j opened with ⟨e, other, at_⟩
  by_cases mine : j = i
  · subst mine
    rw [call] at other
    cases other
    exact ⟨d, put_calls.mpr (.inl ⟨rfl, rfl⟩), same.trans at_⟩
  · exact ⟨e, put_calls.mpr (.inr ⟨mine, calls ▸ other⟩), at_⟩

theorem LoopInv.readers_put {r : AsyncLoop ι} (inv : LoopInv s) (calls : r.calls = s.calls) (call : s.calls i = some c)
    {descriptor : Nat} {cb : Callback ι} (member : (descriptor, cb) ∈ s.loop.readers) (apart : descriptor ≠ c.descriptor) :
    ∃ j e w, (r.put i d).calls j = some e ∧ e.descriptor = descriptor ∧ e.wait = some w ∧
      cb = .onReadable j descriptor w.future ∧ w.state ≠ .resolved := by
  rcases inv.readers descriptor cb member with ⟨j, e, w, other, at_, rest⟩
  have mine : j ≠ i := by
    rintro rfl
    rw [call] at other
    cases other
    exact apart at_.symm
  exact ⟨j, e, w, put_calls.mpr (.inr ⟨mine, calls ▸ other⟩), at_, rest⟩

theorem suspend_inv (inv : LoopInv s) (stepped : s.step (.suspend i) = some t) : LoopInv t := by
  simp only [step, Option.bind_eq_bind, Option.bind_eq_some_iff, Option.pure_def, Option.some.injEq,
    Option.ite_none_right_eq_some] at stepped
  rcases stepped with ⟨c, call, ⟨runs, blocked⟩, rfl⟩
  rcases inv.running i runs with ⟨_, again, awake⟩
  rw [call] at again
  cases again
  have unwatched := inv.unwatched call awake
  constructor
  case calls =>
    intro j d other
    rcases put_calls.mp other with ⟨rfl, rfl⟩ | ⟨mine, other⟩
    · have before := inv.calls j c call
      refine ⟨⟨before.started.reached, before.started.kind, before.started.returned⟩, before.opened,
        (fun awake => by cases awake), ?_⟩
      rintro w ⟨⟩
      exact {
        idle := (Option.some_ne_none j).symm
        blocked := blocked
        known := Nat.lt_succ_self _
        watched := fun _ => EventLoop.mem_addReader.mpr (.inl rfl)
        quiet := fun _ => ⟨rfl, fun member => absurd (inv.woken j _ member) (Nat.lt_irrefl _)⟩
        due := fun done => absurd rfl done
        heard := fun same => by cases same
        interrupted := fun same => by cases same
        allowed := fun _ thrown => by cases thrown }
    · refine (inv.calls j d other).frame rfl ?_ (fun future member => ?_) (fun _ _ => Iff.rfl) (Nat.le_succ _)
      · rw [runs]
        exact iff_of_false (Option.some_ne_none j).symm fun same => mine (Option.some.inj same).symm
      · exact EventLoop.mem_addReader.mpr (.inr ⟨member, inv.apart_of call other mine⟩)
  case owners => exact fun descriptor j opened => inv.owners_put (by rfl) call (by rfl) opened
  case running => exact fun _ runs => by cases runs
  case readers =>
    intro descriptor cb member
    rcases EventLoop.mem_addReader.mp member with same | ⟨before, apart⟩
    · cases same
      exact ⟨i, _, _, put_calls.mpr (.inl ⟨rfl, rfl⟩), rfl, rfl, rfl, fun same => by cases same⟩
    · exact inv.readers_put (by rfl) call before apart
  case live =>
    intro reader member cancelled
    rcases EventLoop.mem_removeReader_cancelled.mp cancelled with watched | cancelled
    · exact unwatched _ watched
    · rcases EventLoop.mem_addReader.mp member with rfl | ⟨before, _⟩
      · exact absurd (inv.known _ _ _ cancelled) (Nat.lt_irrefl _)
      · exact inv.live reader before cancelled
  case scheduled =>
    intro j descriptor future member
    rcases inv.scheduled j descriptor future member with cancelled | ⟨reader, readable⟩
    · exact .inl (EventLoop.mem_removeReader_cancelled.mpr (.inr cancelled))
    · have apart : descriptor ≠ c.descriptor := fun same => unwatched _ (same ▸ reader)
      refine .inr ⟨EventLoop.mem_addReader.mpr (.inr ⟨reader, apart⟩), ?_⟩
      rw [← readable]
      exact readable_put (by rfl) (by rfl) call (by rfl) descriptor
  case known =>
    intro j descriptor future cancelled
    rcases EventLoop.mem_removeReader_cancelled.mp cancelled with watched | cancelled
    · exact absurd watched (unwatched _)
    · exact Nat.lt_succ_of_lt (inv.known j descriptor future cancelled)
  case woken => exact fun j future member => Nat.lt_succ_of_lt (inv.woken j future member)
  case plain =>
    intro cb cancelled
    rcases EventLoop.mem_removeReader_cancelled.mp cancelled with watched | cancelled
    · exact absurd watched (unwatched _)
    · exact inv.plain cb cancelled

theorem Wait.interrupted_allowed {w : Wait} {thrown : Act} {allowed : Act → Prop} (before : ∀ e ∈ w.interruption, allowed e)
    (now : allowed thrown) : ∀ e ∈ (w.interrupted thrown).interruption, allowed e := by
  rintro e ⟨⟩
  split
  · rename_i cancelled
    exact before _ cancelled
  · exact now

theorem LoopInv.rewait {loop : EventLoop (Callback ι)} {v : Wait} (inv : LoopInv s) (call : s.calls i = some c)
    (waits : c.wait = some w) (readers : loop.readers = s.loop.readers) (cancelled : loop.cancelled = s.loop.cancelled)
    (future : v.future = w.future) (state : w.state ≠ .resolved → v.state ≠ .resolved)
    (now : WaitInv { s with loop } i c v)
    (ready : ∀ cb ∈ loop.ready, cb ∈ s.loop.ready ∨ cb = .wakeup i w.future)
    (kept : ∀ cb ∈ s.loop.ready, cb ∈ loop.ready) : LoopInv ({ s with loop }.put i { c with wait := some v }) where
  calls j d other := by
    rcases put_calls.mp other with ⟨rfl, rfl⟩ | ⟨mine, other⟩
    · have before := inv.calls j c call
      refine ⟨⟨before.started.reached, before.started.kind, before.started.returned⟩, before.opened, nofun, ?_⟩
      rintro _ ⟨⟩
      exact { now with }
    · refine (inv.calls j d other).frame rfl Iff.rfl (fun _ member => readers ▸ member) (fun _ _ => ?_) (Nat.le_refl _)
      apply Iff.intro
      · intro member
        exact (ready _ member).resolve_right fun same => mine (Callback.wakeup.inj same).1
      · exact kept _
  owners descriptor j opened := inv.owners_put (by rfl) call (by rfl) opened
  running j runs := by
    rcases inv.running j runs with ⟨d, other, awake⟩
    have mine : j ≠ i := fun same => ((inv.calls i c call).waits w waits).idle (same ▸ runs)
    exact ⟨d, put_calls.mpr (.inr ⟨mine, other⟩), awake⟩
  readers descriptor cb member := by
    have member : (descriptor, cb) ∈ s.loop.readers := readers ▸ member
    by_cases at_ : descriptor = c.descriptor
    · rw [at_] at member ⊢
      rcases inv.reader_of call member with ⟨before, again, rfl, open_⟩
      rw [waits] at again
      cases again
      exact ⟨i, _, v, put_calls.mpr (.inl ⟨rfl, rfl⟩), rfl, rfl, by rw [future], state open_⟩
    · exact inv.readers_put (by rfl) call member at_
  live reader member := cancelled ▸ inv.live reader (readers ▸ member)
  scheduled j descriptor future member := by
    have before : .onReadable j descriptor future ∈ s.loop.ready := (ready _ member).resolve_right nofun
    show _ ∈ loop.cancelled ∨ _ ∈ loop.readers ∧ _
    rw [cancelled, readers]
    refine (inv.scheduled j descriptor future before).imp_right fun ⟨reader, readable⟩ => ⟨reader, ?_⟩
    rw [← readable]
    exact readable_put (by rfl) (by rfl) call (by rfl) descriptor
  known j descriptor future member := inv.known j descriptor future (cancelled ▸ member)
  woken j future member := by
    rcases ready _ member with before | same
    · exact inv.woken j future before
    · cases same
      exact ((inv.calls i c call).waits w waits).known
  plain cb member := inv.plain cb (cancelled ▸ member)

theorem cancel_inv {thrown : Act} (inv : LoopInv s) (stepped : s.step (.cancel i thrown) = some t) : LoopInv t := by
  simp only [step, Option.bind_eq_bind, Option.bind_eq_some_iff, Option.pure_def, Option.some.injEq,
    Option.ite_none_right_eq_some] at stepped
  rcases stepped with ⟨c, call, w, waits, allowed, rfl⟩
  have wait := (inv.calls i c call).waits w waits
  have throws := Wait.interrupted_allowed wait.allowed allowed
  unfold cancel
  split
  · refine inv.rewait call waits (by rfl) (by rfl) (by rfl) ?_ ?_ ?_ ?_
    · exact fun _ same => by cases same
    · exact {
        idle := wait.idle
        blocked := wait.blocked
        known := wait.known
        watched := fun same => by cases same
        quiet := fun same => by cases same
        due := fun _ => EventLoop.mem_callSoon.mpr (.inr rfl)
        heard := fun same => by cases same
        interrupted := fun _ same => by cases same
        allowed := throws }
    · exact fun cb member => EventLoop.mem_callSoon.mp member
    · exact fun cb member => EventLoop.mem_callSoon.mpr (.inl member)
  · rename_i done
    have now : WaitInv s i c (w.interrupted thrown) := {
      wait with
      watched := fun pending => absurd pending done
      quiet := fun pending => absurd pending done
      interrupted := fun _ same => by cases same
      allowed := throws }
    exact inv.rewait call waits (by rfl) (by rfl) (by rfl) id now (fun cb member => .inl member) fun cb member => member

theorem select_inv {events : List (Nat × Callback ι)} (inv : LoopInv s) (stepped : s.step (.select events) = some t) :
    LoopInv t := by
  simp only [step, Option.ite_none_right_eq_some, Option.some.injEq] at stepped
  rcases stepped with ⟨⟨_, _, found⟩, rfl⟩
  have there : ∀ event ∈ events, event ∈ s.loop.readers ∧ s.readable event.1 = true := by
    intro event member
    simpa using found.mem_iff.mp member
  rw [EventLoop.select_eq fun event member => inv.live event (there event member).1]
  refine LoopInv.schedule inv (by rfl) (by rfl) ?_ (fun _ _ _ _ _ => List.mem_append_left _) ?_
  · intro i future member
    refine (List.mem_append.mp member).resolve_right fun member => ?_
    rcases List.mem_map.mp member with ⟨event, selected, same⟩
    rcases inv.readers event.1 event.2 (there event selected).1 with ⟨_, _, _, _, _, _, watched, _⟩
    rw [same] at watched
    cases watched
  · intro i descriptor future member
    rcases List.mem_append.mp member with before | now
    · exact .inl before
    · rcases List.mem_map.mp now with ⟨event, selected, same⟩
      rcases there event selected with ⟨reader, readable⟩
      rcases inv.readers event.1 event.2 reader with ⟨_, _, _, _, _, _, watched, _⟩
      have at_ := same.symm.trans watched
      cases at_
      exact .inr ⟨same ▸ reader, readable⟩

theorem start_inv {descriptor : Nat} {url seconds : String} {maxRedirects timeoutMs : Int} {requireHttp3 : Bool}
    (inv : LoopInv s) (stepped : s.step (.start i descriptor url seconds maxRedirects timeoutMs requireHttp3) = some t) :
    LoopInv t := by
  simp only [step, Option.ite_none_right_eq_some, Option.some.injEq, Option.isNone_iff_eq_none] at stepped
  rcases stepped with ⟨⟨idle, absent, free⟩, rfl⟩
  have another {j : ι} {d : AsyncCall} (call : s.calls j = some d) : j ≠ i ∧ d.descriptor ≠ descriptor := by
    apply And.intro
    · rintro rfl
      rw [absent] at call
      cases call
    · intro same
      have opened := (inv.calls j d call).opened
      rw [same, free] at opened
      cases opened
  constructor
  case calls =>
    intro j d other
    rcases put_calls.mp other with ⟨rfl, rfl⟩ | ⟨_, other⟩
    · exact ⟨⟨⟨_, _, _, _, _, [], rfl⟩, rfl, .inl rfl⟩, Function.update_self _ _ _, fun _ => rfl,
        fun _ asleep => by cases asleep⟩
    · rcases another other with ⟨mine, apart⟩
      refine (inv.calls j d other).frame (Function.update_of_ne apart _ _) ?_ (fun _ => id) (fun _ _ => Iff.rfl)
        (Nat.le_refl _)
      rw [idle]
      exact iff_of_false (fun same => mine (Option.some.inj same).symm) (Option.some_ne_none j).symm
  case owners =>
    intro at_ j opened
    by_cases same : at_ = descriptor
    · subst same
      have mine := (Function.update_self _ _ _).symm.trans opened
      cases mine
      exact ⟨_, put_calls.mpr (.inl ⟨rfl, rfl⟩), rfl⟩
    · have before := (Function.update_of_ne same _ _).symm.trans opened
      rcases inv.owners at_ j before with ⟨d, other, rest⟩
      exact ⟨d, put_calls.mpr (.inr ⟨(another other).1, other⟩), rest⟩
  case running =>
    rintro j ⟨⟩
    exact ⟨_, put_calls.mpr (.inl ⟨rfl, rfl⟩), rfl⟩
  case readers =>
    intro at_ cb member
    rcases inv.readers at_ cb member with ⟨j, d, w, other, rest⟩
    exact ⟨j, d, w, put_calls.mpr (.inr ⟨(another other).1, other⟩), rest⟩
  case scheduled =>
    intro j at_ future member
    refine (inv.scheduled j at_ future member).imp_right fun live => ⟨live.1, ?_⟩
    rcases inv.readers at_ _ live.1 with ⟨k, d, w, other, same, _⟩
    rcases another other with ⟨mine, apart⟩
    rw [same] at apart
    have opened : s.descriptors at_ = some k := same ▸ (inv.calls k d other).opened
    have stays := (Function.update_of_ne apart (some i) s.descriptors).trans opened
    have counted := (readable_iff opened other).mp live.2
    exact (@readable_iff ι ({ s with
      descriptors := Function.update s.descriptors descriptor (some i)
      running := some i }.put i _) k d at_ stays (put_calls.mpr (.inr ⟨mine, other⟩))).mpr counted
  case live => exact inv.live
  case known => exact inv.known
  case woken => exact inv.woken
  case plain => exact inv.plain

theorem finish_inv (inv : LoopInv s) (stepped : s.step (.finish i) = some t) : LoopInv t := by
  simp only [step, Option.bind_eq_bind, Option.bind_eq_some_iff] at stepped
  rcases stepped with ⟨c, call, stepped⟩
  split at stepped
  · simp only [Option.ite_none_right_eq_some, Option.pure_def, Option.some.injEq] at stepped
    rcases stepped with ⟨runs, rfl⟩
    rcases inv.running i runs with ⟨_, again, awake⟩
    rw [call] at again
    cases again
    have unwatched := inv.unwatched call awake
    have stays {j : ι} {d : AsyncCall} (mine : j ≠ i) (other : s.calls j = some d) :
        Function.update s.calls i none j = some d := (Function.update_of_ne mine _ _).trans other
    have watcher {descriptor : Nat} {cb : Callback ι} (member : (descriptor, cb) ∈ s.loop.readers) :
        ∃ j d w, j ≠ i ∧ s.calls j = some d ∧ d.descriptor = descriptor ∧ d.wait = some w ∧
          cb = .onReadable j descriptor w.future ∧ w.state ≠ .resolved := by
      rcases inv.readers descriptor cb member with ⟨j, d, w, other, rest⟩
      refine ⟨j, d, w, ?_, other, rest⟩
      rintro rfl
      rw [call] at other
      cases other
      exact unwatched cb (rest.1 ▸ member)
    constructor
    case calls =>
      intro j d other
      by_cases mine : j = i
      · subst mine
        have gone := (Function.update_self _ _ _).symm.trans other
        cases gone
      · have other := (Function.update_of_ne mine _ _).symm.trans other
        refine (inv.calls j d other).frame ?_ ?_ (fun _ => id) (fun _ _ => Iff.rfl) (Nat.le_refl _)
        · exact Function.update_of_ne (inv.apart_of call other mine) _ _
        · rw [runs]
          exact iff_of_false (Option.some_ne_none j).symm fun same => mine (Option.some.inj same).symm
    case owners =>
      intro descriptor j opened
      by_cases same : descriptor = c.descriptor
      · subst same
        have gone := (Function.update_self _ _ _).symm.trans opened
        cases gone
      · have opened := (Function.update_of_ne same _ _).symm.trans opened
        rcases inv.owners descriptor j opened with ⟨d, other, at_⟩
        have mine : j ≠ i := by
          rintro rfl
          rw [call] at other
          cases other
          exact same at_.symm
        exact ⟨d, stays mine other, at_⟩
    case running => exact fun _ runs => by cases runs
    case readers =>
      intro descriptor cb member
      rcases watcher member with ⟨j, d, w, mine, other, rest⟩
      exact ⟨j, d, w, stays mine other, rest⟩
    case scheduled =>
      intro j descriptor future member
      refine (inv.scheduled j descriptor future member).imp_right fun live => ⟨live.1, ?_⟩
      rcases watcher live.1 with ⟨k, d, w, mine, other, same, _⟩
      have apart : descriptor ≠ c.descriptor := same ▸ inv.apart_of call other mine
      have opened : s.descriptors descriptor = some k := same ▸ (inv.calls k d other).opened
      have counted := (readable_iff opened other).mp live.2
      exact (@readable_iff ι { s with
        calls := Function.update s.calls i none
        descriptors := Function.update s.descriptors c.descriptor none
        running := none } k d descriptor ((Function.update_of_ne apart _ _).trans opened) (stays mine other)).mpr counted
    case live => exact inv.live
    case known => exact inv.known
    case woken => exact inv.woken
    case plain => exact inv.plain
  · cases stepped

theorem wakeup_cases (s : AsyncLoop ι) (j : ι) (future : Nat) :
    (∃ c w, s.calls j = some c ∧ c.wait = some w ∧ w.future = future ∧
      s.wakeup j future = { s with loop := s.loop.removeReader c.descriptor, running := some j }.put j (c.woken w)) ∨
    (∀ c w, s.calls j = some c → c.wait = some w → w.future ≠ future) ∧ s.wakeup j future = s := by
  unfold wakeup
  split
  · rename_i c call
    split
    · rename_i w waits
      split
      · rename_i same
        exact .inl ⟨c, w, call, waits, same, rfl⟩
      · rename_i other
        refine .inr ⟨fun d v call' waits' => ?_, rfl⟩
        rw [call] at call'
        cases call'
        rw [waits] at waits'
        cases waits'
        exact other
    · rename_i awake
      refine .inr ⟨fun d v call' waits' => ?_, rfl⟩
      rw [call] at call'
      cases call'
      rw [awake] at waits'
      cases waits'
  · rename_i absent
    refine .inr ⟨fun d v call' _ => ?_, rfl⟩
    rw [absent] at call'
    cases call'

theorem onReadable_cases (s : AsyncLoop ι) (j : ι) (descriptor future : Nat) :
    (∃ c w, s.calls j = some c ∧ c.wait = some w ∧ w.future = future ∧ w.state = .pending ∧
      s.onReadable j descriptor future =
        { s with loop := (s.loop.removeReader descriptor).callSoon (.wakeup j future) }.put j
          { c with wait := some { w with state := .resolved } }) ∨
    (∀ c w, s.calls j = some c → c.wait = some w → w.future = future → w.state ≠ .pending) ∧
      s.onReadable j descriptor future = { s with loop := s.loop.removeReader descriptor } := by
  unfold onReadable
  simp only
  split
  · rename_i c call
    split
    · rename_i w waits
      split
      · rename_i own
        exact .inl ⟨c, w, call, waits, own.1, own.2, rfl⟩
      · rename_i other
        refine .inr ⟨fun d v call' waits' same pending => ?_, rfl⟩
        rw [call] at call'
        cases call'
        rw [waits] at waits'
        cases waits'
        exact other ⟨same, pending⟩
    · rename_i awake
      refine .inr ⟨fun d v call' waits' => ?_, rfl⟩
      rw [call] at call'
      cases call'
      rw [awake] at waits'
      cases waits'
  · rename_i absent
    refine .inr ⟨fun d v call' _ => ?_, rfl⟩
    rw [absent] at call'
    cases call'

theorem onReadable_inv {descriptor future : Nat} (inv : LoopInv s)
    (reader : (descriptor, .onReadable i descriptor future) ∈ s.loop.readers) (readable : s.readable descriptor = true) :
    LoopInv (s.onReadable i descriptor future) := by
  have removed := inv.removed descriptor
  rcases inv.readers descriptor _ reader with ⟨_, c, w, call, rfl, waits, same, open_⟩
  cases same
  have before := inv.calls i c call
  have wait := before.waits w waits
  have counted := (readable_iff before.opened call).mp readable
  have other_reader {j : ι} {d : AsyncCall} (other : s.calls j = some d) (mine : j ≠ i) (future : Nat)
      (member : (d.descriptor, .onReadable j d.descriptor future) ∈ s.loop.readers) :
      (d.descriptor, .onReadable j d.descriptor future) ∈ (s.loop.removeReader c.descriptor).readers :=
    EventLoop.mem_removeReader.mpr ⟨member, inv.apart_of call other mine⟩
  rcases onReadable_cases s i c.descriptor w.future with ⟨d, v, call', waits', _, pending, told⟩ | ⟨stale, unmoved⟩
  · rw [call] at call'
    cases call'
    rw [waits] at waits'
    cases waits'
    rw [told]
    constructor
    case calls =>
      intro j d other
      rcases put_calls.mp other with ⟨rfl, rfl⟩ | ⟨mine, other⟩
      · refine ⟨⟨before.started.reached, before.started.kind, before.started.returned⟩, before.opened,
          (fun awake => by cases awake), ?_⟩
        intro v asked
        cases asked
        exact {
          idle := wait.idle
          blocked := wait.blocked
          known := wait.known
          watched := fun same => by cases same
          quiet := fun same => by cases same
          due := fun _ => EventLoop.mem_callSoon.mpr (.inr rfl)
          heard := fun _ => counted
          interrupted := fun same => by cases same
          allowed := wait.allowed }
      · refine (inv.calls j d other).frame rfl Iff.rfl (other_reader other mine) (fun v _ => ?_) (Nat.le_refl _)
        exact EventLoop.mem_callSoon.trans (or_iff_left fun same => mine (Callback.wakeup.inj same).1)
    case owners => exact fun descriptor j opened => inv.owners_put (by rfl) call (by rfl) opened
    case running =>
      intro j runs
      rcases inv.running j runs with ⟨d, other, awake⟩
      have mine : j ≠ i := fun same => wait.idle (same ▸ runs)
      exact ⟨d, put_calls.mpr (.inr ⟨mine, other⟩), awake⟩
    case readers =>
      intro descriptor cb member
      rcases EventLoop.mem_removeReader.mp member with ⟨before, apart⟩
      exact inv.readers_put (by rfl) call before apart
    case live => exact removed.live
    case scheduled =>
      intro j at_ future member
      rcases EventLoop.mem_callSoon.mp member with member | same
      · refine (inv.scheduled_removed member).imp_right fun live => ⟨live.1, ?_⟩
        rw [← live.2]
        exact readable_put (by rfl) (by rfl) call (by rfl) at_
      · cases same
    case known => exact removed.known
    case woken =>
      intro j future member
      rcases EventLoop.mem_callSoon.mp member with member | same
      · exact inv.woken j future member
      · cases same
        exact wait.known
    case plain => exact removed.plain
  · have done := stale c w call waits rfl
    rw [unmoved]
    constructor
    case calls =>
      intro j d other
      by_cases mine : j = i
      · subst mine
        rw [call] at other
        cases other
        refine ⟨before.started, before.opened, before.running, fun v again => ?_⟩
        rw [waits] at again
        cases again
        exact { wait with watched := fun pending => absurd pending done }
      · exact (inv.calls j d other).frame rfl Iff.rfl (other_reader other mine) (fun _ _ => Iff.rfl) (Nat.le_refl _)
    case owners => exact inv.owners
    case running => exact inv.running
    case readers => exact fun descriptor cb member => inv.readers descriptor cb (EventLoop.mem_removeReader.mp member).1
    case live => exact removed.live
    case scheduled => exact fun j at_ future member => inv.scheduled_removed member
    case known => exact removed.known
    case woken => exact inv.woken
    case plain => exact removed.plain

def popped (s : AsyncLoop ι) (tail : List (Callback ι)) : AsyncLoop ι :=
  { s with loop := { s.loop with ready := tail, todo := s.loop.todo - 1 } }

theorem wakeup_inv {future : Nat} {tail : List (Callback ι)} (inv : LoopInv s) (idle : s.running = none)
    (ready : s.loop.ready = .wakeup i future :: tail) : LoopInv ((s.popped tail).wakeup i future) := by
  have behind {cb : Callback ι} (member : cb ∈ tail) : cb ∈ s.loop.ready := by
    rw [ready]
    exact List.mem_cons_of_mem _ member
  have ahead {cb : Callback ι} (member : cb ∈ s.loop.ready) (other : cb ≠ .wakeup i future) : cb ∈ tail := by
    rw [ready] at member
    exact (List.mem_cons.mp member).resolve_left other
  -- A wake-up that nothing waits for any more is the only one to be dropped.
  have dropped (stale : ∀ c w, s.calls i = some c → c.wait = some w → w.future ≠ future) : LoopInv (s.popped tail) := by
    refine LoopInv.schedule inv (by rfl) (by rfl) (fun j at_ member => behind member) ?_
      (fun j at_ f member => .inl (behind member))
    intro j c w call waits member
    apply ahead member
    intro head
    rcases Callback.wakeup.inj head with ⟨rfl, future⟩
    exact stale c w call waits future
  rcases wakeup_cases (s.popped tail) i future with ⟨c, w, call, waits, rfl, woken⟩ | ⟨stale, same⟩
  · rw [woken]
    have call : s.calls i = some c := call
    have before := inv.calls i c call
    have wait := before.waits w waits
    have done : w.state ≠ .pending := by
      intro pending
      apply (wait.quiet pending).2
      rw [ready]
      exact List.mem_cons_self
    have removed := inv.removed c.descriptor
    rcases woken_call c w with ⟨descriptor, awake, same⟩
    constructor
    case calls =>
      intro j d other
      rcases put_calls.mp other with ⟨rfl, rfl⟩ | ⟨mine, other⟩
      · rcases before.woken waits done with ⟨act, stepped⟩
        have started := @AsyncCall.Started.step c _ before.started _ stepped (c.woken w).wait
        rw [← descriptor] at started
        refine ⟨started, ?_, fun _ => rfl, fun v again => ?_⟩
        · rw [descriptor]
          exact before.opened
        · rw [awake] at again
          cases again
      · refine (inv.calls j d other).frame rfl ?_ (fun f member => ?_) (fun v _ => ?_) (Nat.le_refl _)
        · rw [idle]
          exact iff_of_false (fun same => mine (Option.some.inj same).symm) (Option.some_ne_none j).symm
        · exact EventLoop.mem_removeReader.mpr ⟨member, inv.apart_of call other mine⟩
        · exact ⟨behind, fun member => ahead member fun same => mine (Callback.wakeup.inj same).1⟩
    case owners => exact fun at_ j opened => inv.owners_put (by rfl) call descriptor opened
    case running =>
      rintro j ⟨⟩
      exact ⟨_, put_calls.mpr (.inl ⟨rfl, rfl⟩), awake⟩
    case readers =>
      intro at_ cb member
      rcases EventLoop.mem_removeReader.mp member with ⟨member, apart⟩
      exact inv.readers_put (by rfl) call member apart
    case live => exact removed.live
    case scheduled =>
      intro j at_ f member
      refine (inv.scheduled_removed (behind member)).imp_right fun live => ⟨live.1, ?_⟩
      rw [← live.2]
      exact readable_put (by rfl) (by rfl) call (by rw [same]) at_
    case known => exact removed.known
    case woken => exact fun j f member => inv.woken j f (behind member)
    case plain => exact removed.plain
  · rw [same]
    exact dropped stale

theorem pop_inv (inv : LoopInv s) (stepped : s.step .pop = some t) : LoopInv t := by
  simp only [step, Option.ite_none_right_eq_some] at stepped
  rcases stepped with ⟨idle, stepped⟩
  -- Anything but a wake-up may go without a task's missing it.
  have schedule {cb : Callback ι} {tail : List (Callback ι)} (ready : s.loop.ready = cb :: tail)
      (plain : ∀ i future, cb ≠ .wakeup i future) : LoopInv (s.popped tail) := by
    refine LoopInv.schedule inv (by rfl) (by rfl) ?_ ?_ ?_
    · intro i future member
      rw [ready]
      exact List.mem_cons_of_mem _ member
    · intro i c w _ _ member
      rw [ready] at member
      exact (List.mem_cons.mp member).resolve_left fun same => plain i w.future same.symm
    · intro i descriptor future member
      rw [ready]
      exact .inl (List.mem_cons_of_mem _ member)
  split at stepped
  · rename_i cb loop next
    rcases EventLoop.pop_spec next with ⟨_, tail, ready, _, rfl, same⟩
    split at same
    · cases same
    · rename_i live
      cases same
      cases stepped
      cases cb with
      | wakeup i future => exact wakeup_inv inv idle ready
      | other => exact schedule ready fun _ _ same => by cases same
      | onReadable i descriptor future =>
        have head : .onReadable i descriptor future ∈ s.loop.ready := by
          rw [ready]
          exact List.mem_cons_self
        rcases inv.scheduled i descriptor future head with cancelled | ⟨reader, readable⟩
        · exact absurd cancelled live
        · exact onReadable_inv (schedule ready (fun _ _ same => by cases same)) reader readable
  · rename_i loop next
    cases stepped
    rcases EventLoop.pop_spec next with ⟨cb, tail, ready, _, rfl, same⟩
    split at same
    · rename_i cancelled
      rcases inv.plain cb cancelled with ⟨_, _, _, rfl⟩
      exact schedule ready fun _ _ same => by cases same
    · cases same
  · cases stepped

theorem step_inv {label : AsyncLabel ι} (inv : LoopInv s) (stepped : s.step label = some t) : LoopInv t := by
  cases label with
  | start task descriptor url seconds maxRedirects timeoutMs requireHttp3 => exact start_inv inv stepped
  | env task label => exact env_inv inv stepped
  | act task => exact act_inv inv stepped
  | suspend task => exact suspend_inv inv stepped
  | finish task => exact finish_inv inv stepped
  | cancel task thrown => exact cancel_inv inv stepped
  | callSoon =>
    cases stepped
    exact callSoon_inv inv
  | select events => exact select_inv inv stepped
  | pop => exact pop_inv inv stepped

theorem run_inv {labels : List (AsyncLabel ι)} (ran : machine.run initial labels = some s) : LoopInv s :=
  Machine.invariant LoopInv initial_inv (fun _ _ _ inv stepped => step_inv inv stepped) ran

/-- What a loop keeps to, whatever tasks it has: each call goes through a run of its own, its descriptor is watched by
    nobody but its task, and not for longer than this waits, and a task that waits is watched for or is to wake up. -/
structure Sound (s : AsyncLoop ι) : Prop where
  reached : ∀ i c, s.calls i = some c → c.Reached
  apart : ∀ i j c d, s.calls i = some c → s.calls j = some d → c.descriptor = d.descriptor → i = j
  watched : ∀ descriptor cb, (descriptor, cb) ∈ s.loop.readers → ∃ i c w, s.calls i = some c ∧ c.descriptor = descriptor ∧
    c.wait = some w ∧ cb = .onReadable i descriptor w.future ∧ w.state ≠ .resolved
  waits : ∀ i c w, s.calls i = some c → c.wait = some w →
    w.state = .pending ∧ (c.descriptor, .onReadable i c.descriptor w.future) ∈ s.loop.readers ∨
      w.state ≠ .pending ∧ .wakeup i w.future ∈ s.loop.ready ∧
        (w.interruption = none → 0 < c.owned.call.shared.completionFd)

theorem loop_sound {labels : List (AsyncLabel ι)} (ran : machine.run initial labels = some s) : Sound s := by
  have inv := run_inv ran
  constructor
  case reached => exact fun i c call => (inv.calls i c call).started.reached
  case apart => exact fun i j c d first second same => inv.apart first second same
  case watched => exact inv.readers
  case waits =>
    intro i c w call waits
    have wait := (inv.calls i c call).waits w waits
    cases state : w.state with
    | pending => exact .inl ⟨rfl, wait.watched state⟩
    | resolved => exact .inr ⟨nofun, wait.due (by rw [state]; nofun), fun _ => wait.heard state⟩
    | cancelled =>
      exact .inr ⟨nofun, wait.due (by rw [state]; nofun), fun none => absurd none (wait.interrupted state)⟩

/-- Two tasks have each asked for a page, and the headers of the first one's wake it up. -/
theorem loop_sound_woken :
    ∃ labels s, machine.run (initial : AsyncLoop Nat) labels = some s ∧ s.running = some 0 ∧ Sound s := by
  let asked (task descriptor : Nat) : List (AsyncLabel Nat) :=
    [.start task descriptor "http://a/" "30" 20 30000 false, .env task (.registerCall true), .env task .construct,
      .env task .attachRequest, .env task .start, .act task, .act task, .suspend task]
  let labels : List (AsyncLabel Nat) := asked 0 7 ++ asked 1 8 ++
    [.env 0 (.task none), .env 0 (.callback (.onResponseStarted ⟨200, "OK", none, false, "h2", ""⟩)), .env 0 .op, .env 0 .op,
      .env 0 .op, .env 0 .op, .callSoon, .select [(7, .onReadable 0 7 0)], .pop, .pop, .select [], .pop]
  have woken : (machine.run (initial : AsyncLoop Nat) labels).map AsyncLoop.running = some (some 0) := by decide
  rcases Option.map_eq_some_iff.mp woken with ⟨s, ran, runs⟩
  exact ⟨labels, s, ran, runs, loop_sound ran⟩

end AsyncLoop

end Cronet.Session
