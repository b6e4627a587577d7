import Mathlib.Data.List.Basic

universe u

/-- An event loop: the callbacks that wait for a descriptor to become readable, and those that are scheduled, of which the
    first `todo` belong to the turn under way. A callback stands for its handle. -/
structure EventLoop (Callback : Type u) where
  readers : List (Nat × Callback)
  ready : List Callback
  todo : Nat
  cancelled : List Callback

namespace EventLoop

variable {Callback : Type u}

def empty : EventLoop Callback := ⟨[], [], 0, []⟩

def batch (l : EventLoop Callback) : List Callback := l.ready.take l.todo

def callSoon (l : EventLoop Callback) (cb : Callback) : EventLoop Callback := { l with ready := l.ready ++ [cb] }

def removeReader (l : EventLoop Callback) (descriptor : Nat) : EventLoop Callback :=
  { l with
    readers := l.readers.filter fun reader => reader.1 ≠ descriptor
    cancelled := (l.readers.filter fun reader => reader.1 = descriptor).map Prod.snd ++ l.cancelled }

def addReader (l : EventLoop Callback) (descriptor : Nat) (cb : Callback) : EventLoop Callback :=
  { l.removeReader descriptor with readers := (descriptor, cb) :: (l.removeReader descriptor).readers }

variable {l : EventLoop Callback} {cb other : Callback} {descriptor : Nat} {reader : Nat × Callback}

@[simp] theorem mem_callSoon : other ∈ (l.callSoon cb).ready ↔ other ∈ l.ready ∨ other = cb := by
  simp [callSoon]

@[simp] theorem mem_removeReader : reader ∈ (l.removeReader descriptor).readers ↔
    reader ∈ l.readers ∧ reader.1 ≠ descriptor := by
  simp [removeReader]

@[simp] theorem mem_removeReader_cancelled :
    cb ∈ (l.removeReader descriptor).cancelled ↔ (descriptor, cb) ∈ l.readers ∨ cb ∈ l.cancelled := by
  simp [removeReader]

@[simp] theorem mem_addReader : reader ∈ (l.addReader descriptor cb).readers ↔
    reader = (descriptor, cb) ∨ reader ∈ l.readers ∧ reader.1 ≠ descriptor := by
  simp [addReader]

theorem mem_batch_callSoon (scheduled : other ∈ l.batch) : other ∈ (l.callSoon cb).batch := by
  show other ∈ (l.ready ++ [cb]).take l.todo
  rw [List.take_append]
  exact List.mem_append_left _ scheduled

def Counted (l : EventLoop Callback) : Prop := l.todo ≤ l.ready.length

theorem Counted.callSoon (counted : l.Counted) : (l.callSoon cb).Counted := by
  show l.todo ≤ (l.ready ++ [cb]).length
  rw [List.length_append]
  exact Nat.le_add_right_of_le counted

variable [DecidableEq Callback]

def process (l : EventLoop Callback) (event : Nat × Callback) : EventLoop Callback :=
  if event.2 ∈ l.cancelled then l.removeReader event.1 else l.callSoon event.2

/-- The start of a turn: what the selector has found is scheduled behind what is already. -/
def select (l : EventLoop Callback) (events : List (Nat × Callback)) : EventLoop Callback :=
  { events.foldl process l with todo := (events.foldl process l).ready.length }

def pop (l : EventLoop Callback) : Option (Option Callback × EventLoop Callback) :=
  match l.ready with
  | cb :: rest =>
    if l.todo = 0 then none
    else some (if cb ∈ l.cancelled then none else some cb, { l with ready := rest, todo := l.todo - 1 })
  | [] => none

variable {events : List (Nat × Callback)}

theorem foldl_process (live : ∀ event ∈ events, event.2 ∉ l.cancelled) :
    events.foldl process l = { l with ready := l.ready ++ events.map Prod.snd } := by
  induction events generalizing l with
  | nil => simp
  | cons event events ih =>
    have first : process l event = l.callSoon event.2 := if_neg (live event List.mem_cons_self)
    have later := @ih (l.callSoon event.2) fun other member => live other (List.mem_cons_of_mem event member)
    rw [List.foldl_cons, first, later]
    simp [callSoon]

theorem select_eq (live : ∀ event ∈ events, event.2 ∉ l.cancelled) :
    l.select events =
      { l with ready := l.ready ++ events.map Prod.snd, todo := (l.ready ++ events.map Prod.snd).length } := by
  rw [select, foldl_process live]

theorem pop_spec {next : Option Callback} {rest : EventLoop Callback} (popped : l.pop = some (next, rest)) :
    ∃ cb tail, l.ready = cb :: tail ∧ 0 < l.todo ∧ rest = { l with ready := tail, todo := l.todo - 1 } ∧
      next = if cb ∈ l.cancelled then none else some cb := by
  unfold pop at popped
  split at popped
  · rename_i cb tail scheduled
    split at popped
    · cases popped
    · rename_i begun
      cases popped
      exact ⟨cb, tail, scheduled, Nat.pos_of_ne_zero begun, rfl, rfl⟩
  · cases popped

theorem mem_batch_pop {next : Option Callback} {rest : EventLoop Callback} (popped : l.pop = some (next, rest))
    (scheduled : other ∈ l.batch) : other ∈ rest.batch ∨ l.ready.head? = some other := by
  rcases pop_spec popped with ⟨cb, tail, ready, begun, rfl, _⟩
  rcases Nat.exists_eq_add_of_lt begun with ⟨todo, counted⟩
  rw [batch, ready, counted, Nat.zero_add, List.take_succ_cons] at scheduled
  rcases List.mem_cons.mp scheduled with rfl | later
  · exact .inr (by rw [ready]; rfl)
  · refine .inl ?_
    show other ∈ tail.take (l.todo - 1)
    rw [counted, Nat.zero_add, Nat.add_sub_cancel]
    exact later

theorem select_counted : (l.select events).Counted := Nat.le_refl _

theorem Counted.pop {next : Option Callback} {rest : EventLoop Callback} (counted : l.Counted)
    (popped : l.pop = some (next, rest)) :
    rest.Counted := by
  rcases pop_spec popped with ⟨cb, tail, ready, begun, rfl, _⟩
  have bound : l.todo ≤ tail.length + 1 := by
    rw [Counted, ready, List.length_cons] at counted
    exact counted
  show l.todo - 1 ≤ tail.length
  omega

theorem Counted.turns (counted : l.Counted) : l.todo = 0 ∨ ∃ next rest, l.pop = some (next, rest) := by
  by_cases spent : l.todo = 0
  · exact .inl spent
  · unfold EventLoop.pop
    cases ready : l.ready with
    | nil =>
      rw [Counted, ready, List.length_nil, Nat.le_zero] at counted
      exact absurd counted spent
    | cons cb tail => exact .inr ⟨_, _, if_neg spent⟩

end EventLoop
