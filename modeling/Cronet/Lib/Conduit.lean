import Cronet.Lib.Machine
import Mathlib.Data.List.TakeDrop

universe u

/-- Everything written so far and how much of it has been taken: readers see the written
    items once each, in order, and meet the end only after the writer has closed. -/
structure Conduit (α : Type u) where
  written : List α
  taken : Nat
  closed : Bool
  within : taken ≤ written.length

namespace Conduit

variable {α : Type u}

def empty : Conduit α := ⟨[], 0, false, Nat.le_refl 0⟩

def remaining (s : Conduit α) : List α := s.written.drop s.taken

def write (s : Conduit α) (chunk : List α) : Conduit α :=
  ⟨s.written ++ chunk, s.taken, s.closed, by simpa using Nat.le_add_right_of_le s.within⟩

def close (s : Conduit α) : Conduit α := { s with closed := true }

/-- What a reader asking for `capacity` items gets; `none` is the end of the conduit. -/
def got (s : Conduit α) (capacity : Nat) : Option (List α) :=
  if s.remaining = [] ∧ s.closed then none else some (s.remaining.take capacity)

def take (s : Conduit α) (capacity : Nat) : Conduit α :=
  ⟨s.written, min (s.taken + capacity) s.written.length, s.closed, Nat.min_le_right _ _⟩

inductive Event (α : Type u) where
  | write (chunk : List α)
  | take (capacity : Nat) (got : Option (List α))
  | close
  deriving DecidableEq

def machine [DecidableEq α] : Machine (Conduit α) (Event α) where
  step s
    | .write chunk => if s.closed then none else some (s.write chunk)
    | .take capacity got => if s.got capacity = got then some (s.take capacity) else none
    | .close => some s.close

def writtenBy : List (Event α) → List α
  | [] => []
  | .write chunk :: events => chunk ++ writtenBy events
  | _ :: events => writtenBy events

def takenBy : List (Event α) → List α
  | [] => []
  | .take _ (some items) :: events => items ++ takenBy events
  | _ :: events => takenBy events

@[simp] theorem remaining_empty : (empty : Conduit α).remaining = [] := rfl

@[simp] theorem remaining_write (s : Conduit α) (chunk : List α) :
    (s.write chunk).remaining = s.remaining ++ chunk :=
  List.drop_append_of_le_length s.within

@[simp] theorem remaining_close (s : Conduit α) : s.close.remaining = s.remaining := rfl

@[simp] theorem remaining_take (s : Conduit α) (capacity : Nat) :
    (s.take capacity).remaining = s.remaining.drop capacity := by
  simp only [remaining, take, List.drop_drop]
  rcases Nat.le_total (s.taken + capacity) s.written.length with within | past
  · rw [Nat.min_eq_left within]
  · rw [Nat.min_eq_right past, List.drop_length, List.drop_eq_nil_of_le past]

theorem got_eq_none {s : Conduit α} {capacity : Nat} :
    s.got capacity = none ↔ s.remaining = [] ∧ s.closed = true := by
  simp [got]

theorem writtenBy_append (first second : List (Event α)) :
    writtenBy (first ++ second) = writtenBy first ++ writtenBy second := by
  induction first with
  | nil => rfl
  | cons event first ih => cases event <;> simp [writtenBy, ih]

theorem takenBy_append (first second : List (Event α)) :
    takenBy (first ++ second) = takenBy first ++ takenBy second := by
  induction first with
  | nil => rfl
  | cons event first ih =>
    cases event with
    | take capacity got => cases got <;> simp [takenBy, ih]
    | write chunk => simp [takenBy, ih]
    | close => simp [takenBy, ih]

section Runs

variable [DecidableEq α]

theorem step_conserves {s t : Conduit α} {event : Event α} (stepped : machine.step s event = some t) :
    takenBy [event] ++ t.remaining = s.remaining ++ writtenBy [event] := by
  cases event with
  | write chunk =>
    simp only [machine] at stepped
    split at stepped
    · cases stepped
    · cases stepped
      simp [takenBy, writtenBy]
  | take capacity got =>
    simp only [machine, Option.ite_none_right_eq_some, Option.some.injEq] at stepped
    obtain ⟨given, rfl⟩ := stepped
    cases got with
    | none =>
      have drained := (got_eq_none.mp given).1
      simp [takenBy, writtenBy, drained]
    | some items =>
      have front : s.remaining.take capacity = items := by
        unfold Conduit.got at given
        split at given
        · cases given
        · exact Option.some.inj given
      simp [takenBy, writtenBy, ← front]
  | close =>
    cases stepped
    simp [takenBy, writtenBy]

/-- Nothing is lost, duplicated or reordered between the writer and the readers. -/
theorem run_conserves {s t : Conduit α} {events : List (Event α)} (ran : machine.run s events = some t) :
    takenBy events ++ t.remaining = s.remaining ++ writtenBy events := by
  refine Machine.history_invariant
    (fun past a => takenBy past ++ a.remaining = s.remaining ++ writtenBy past) ?_ ?_ ran
  · simp [takenBy, writtenBy]
  · intro past a event b _ conserved stepped
    rw [takenBy_append, writtenBy_append, List.append_assoc, step_conserves stepped,
      ← List.append_assoc, conserved, List.append_assoc]

theorem run_ended {s t : Conduit α} {events : List (Event α)} (ran : machine.run s events = some t)
    (drained : s.remaining = []) (closed : s.closed = true) : t.remaining = [] ∧ t.closed = true := by
  refine Machine.invariant (fun a => a.remaining = [] ∧ a.closed = true) ⟨drained, closed⟩ ?_ ran
  intro a event b ⟨drained, closed⟩ stepped
  cases event with
  | write chunk => simp [machine, closed] at stepped
  | take capacity got =>
    simp only [machine, Option.ite_none_right_eq_some, Option.some.injEq] at stepped
    obtain ⟨_, rfl⟩ := stepped
    exact ⟨by simp [drained], closed⟩
  | close =>
    cases stepped
    exact ⟨drained, rfl⟩

theorem run_closed {s t : Conduit α} {events : List (Event α)} (ran : machine.run s events = some t)
    (opened : s.closed = false) : t.closed = true ↔ Event.close ∈ events := by
  refine Machine.history_invariant (fun past a => a.closed = true ↔ Event.close ∈ past) ?_ ?_ ran
  · simp [opened]
  · intro past a event b _ same stepped
    cases event with
    | write chunk =>
      simp only [machine] at stepped
      split at stepped
      · cases stepped
      · cases stepped
        simpa [write] using same
    | take capacity got =>
      simp only [machine, Option.ite_none_right_eq_some, Option.some.injEq] at stepped
      obtain ⟨_, rfl⟩ := stepped
      simpa [take] using same
    | close =>
      cases stepped
      simp [close]

end Runs

end Conduit
