import Cronet.Lib.EventLoop
import Cronet.Session.Owner
import Mathlib.Logic.Function.Basic

namespace Cronet.Session

open Cronet.Native (Label)

inductive FutureState where
  | pending
  | resolved
  | cancelled
  deriving DecidableEq

/-- A task in `await ready` of `_progress`, with what is to be raised there: `expire` where `asyncio.timeout` makes a
    `TimeoutError` of it, and else `cancelled`. -/
structure Wait where
  future : Nat
  state : FutureState
  interruption : Option Act
  deriving DecidableEq

/-- A call that a task has in `AsyncSession._perform`. -/
structure AsyncCall where
  descriptor : Nat
  owned : Owned
  wait : Option Wait

/-- What the loop may call: `on_readable` of `_progress`, the step of a task, or something of others. -/
inductive Callback (ι : Type) where
  | onReadable (task : ι) (descriptor future : Nat)
  | wakeup (task : ι) (future : Nat)
  | other
  deriving DecidableEq

/-- Tasks of a loop with their calls and the descriptors these have open; `running` is the task that has the thread. -/
structure AsyncLoop (ι : Type) where
  loop : EventLoop (Callback ι)
  calls : ι → Option AsyncCall
  descriptors : Nat → Option ι
  fresh : Nat
  running : Option ι

inductive AsyncLabel (ι : Type) where
  | start (task : ι) (descriptor : Nat) (url seconds : String) (maxRedirects timeoutMs : Int) (requireHttp3 : Bool)
  | env (task : ι) (label : Label)
  | act (task : ι)
  | suspend (task : ι)
  | finish (task : ι)
  | cancel (task : ι) (thrown : Act)
  | callSoon
  | select (events : List (Nat × Callback ι))
  | pop

/-- The owner is at an `await`. -/
def Owned.blocked (o : Owned) : Bool := o.owner.pc = .headers .poll || o.owner.pc = .body .poll

namespace AsyncCall

/-- `_wait_for_headers` and `_read_body` go on with the next round. -/
def resumed (c : AsyncCall) : AsyncCall :=
  { c with
    owned := c.owned.goto (if c.owned.owner.pc = .headers .poll then .headers .drain else .body .drain)
    wait := none }

/-- What `_perform` makes of an exception at an `await`. -/
def thrown (c : AsyncCall) (interruption : Act) : AsyncCall :=
  let e := if interruption = .expire then .cronet c.owned.owner.timedOut else .cancelledError
  { c with owned := c.owned.goto (c.owned.owner.settle (.raised e)), wait := none }

def woken (c : AsyncCall) (w : Wait) : AsyncCall :=
  match w.interruption with
  | none => c.resumed
  | some interruption => c.thrown interruption

end AsyncCall

def Wait.interrupted (w : Wait) (thrown : Act) : Wait :=
  { w with interruption := some (if w.interruption = some .cancelled then .cancelled else thrown) }

namespace AsyncLoop

variable {ι : Type} [DecidableEq ι]

def initial : AsyncLoop ι := ⟨.empty, fun _ => none, fun _ => none, 0, none⟩

def put (s : AsyncLoop ι) (task : ι) (c : AsyncCall) : AsyncLoop ι :=
  { s with calls := Function.update s.calls task (some c) }

def readable (s : AsyncLoop ι) (descriptor : Nat) : Bool :=
  match (s.descriptors descriptor).bind s.calls with
  | some c => 0 < c.owned.call.shared.completionFd
  | none => false

def onReadable (s : AsyncLoop ι) (task : ι) (descriptor future : Nat) : AsyncLoop ι :=
  let s := { s with loop := s.loop.removeReader descriptor }
  match s.calls task with
  | some c =>
    match c.wait with
    | some w =>
      if w.future = future ∧ w.state = .pending then
        { s with loop := s.loop.callSoon (.wakeup task future) }.put task
          { c with wait := some { w with state := .resolved } }
      else s
    | none => s
  | none => s

/-- The task goes on behind its `await`, and leaves `_progress` through the `finally`. -/
def wakeup (s : AsyncLoop ι) (task : ι) (future : Nat) : AsyncLoop ι :=
  match s.calls task with
  | some c =>
    match c.wait with
    | some w =>
      if w.future = future then
        { s with loop := s.loop.removeReader c.descriptor, running := some task }.put task (c.woken w)
      else s
    | none => s
  | none => s

def call (s : AsyncLoop ι) : Callback ι → AsyncLoop ι
  | .onReadable task descriptor future => s.onReadable task descriptor future
  | .wakeup task future => s.wakeup task future
  | .other => s

/-- `Task.cancel`: a future that is done already is left as it is, and the exception raised nevertheless. -/
def cancel (s : AsyncLoop ι) (task : ι) (c : AsyncCall) (w : Wait) (thrown : Act) : AsyncLoop ι :=
  if w.state = .pending then
    { s with loop := s.loop.callSoon (.wakeup task w.future) }.put task
      { c with wait := some { w.interrupted thrown with state := .cancelled } }
  else s.put task { c with wait := some (w.interrupted thrown) }

def step (s : AsyncLoop ι) : AsyncLabel ι → Option (AsyncLoop ι)
  | .start task descriptor url seconds maxRedirects timeoutMs requireHttp3 =>
    if s.running = none ∧ (s.calls task).isNone ∧ (s.descriptors descriptor).isNone then
      let owned := .initial url maxRedirects .asyncRequest seconds timeoutMs requireHttp3
      some ({ s with
        descriptors := Function.update s.descriptors descriptor (some task)
        running := some task }.put task ⟨descriptor, owned, none⟩)
    else none
  | .env task label => do
    let c ← s.calls task
    let owned ← c.owned.step (.env label)
    return s.put task { c with owned }
  | .act task => do
    let c ← s.calls task
    if s.running = some task ∧ c.owned.blocked = false then
      let owned ← c.owned.step (.owner .proceed)
      return s.put task { c with owned }
    else none
  | .suspend task => do
    let c ← s.calls task
    if s.running = some task ∧ c.owned.blocked then
      return { s with
        loop := s.loop.addReader c.descriptor (.onReadable task c.descriptor s.fresh)
        fresh := s.fresh + 1
        running := none }.put task { c with wait := some ⟨s.fresh, .pending, none⟩ }
    else none
  | .finish task => do
    let c ← s.calls task
    match c.owned.owner.pc with
    | .done _ =>
      if s.running = some task then
        return { s with
          calls := Function.update s.calls task none
          descriptors := Function.update s.descriptors c.descriptor none
          running := none }
      else none
    | _ => none
  | .cancel task thrown => do
    let c ← s.calls task
    let w ← c.wait
    if thrown = .cancelled ∨ thrown = .expire ∧ 0 ≤ c.owned.owner.timeoutMs then return s.cancel task c w thrown else none
  | .callSoon => some { s with loop := s.loop.callSoon .other }
  | .select events =>
    if s.running = none ∧ s.loop.todo = 0 ∧ events.Perm (s.loop.readers.filter fun reader => s.readable reader.1) then
      some { s with loop := s.loop.select events }
    else none
  | .pop =>
    if s.running = none then
      match s.loop.pop with
      | some (some cb, loop) => some (call { s with loop } cb)
      | some (none, loop) => some { s with loop }
      | none => none
    else none

def machine : Machine (AsyncLoop ι) (AsyncLabel ι) := ⟨step⟩

end AsyncLoop

end Cronet.Session
