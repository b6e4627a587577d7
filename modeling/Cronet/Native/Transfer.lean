import Cronet.Native.Body

namespace Cronet.Native

/-- The sections under `body_lock_`, in the order the lock admits them, each `Read` with
    what it returned. -/
inductive Section where
  | onData (chunk : Bytes)
  | read (capacity : Nat) (ret : ReadReturn)
  | finish
  deriving DecidableEq

/-- The network thread calls `OnData` any number of times and then `Finish`; readers on any
    thread ask for at least one byte. -/
def bodyMachine : Machine Body Section where
  step b
    | .onData chunk => if b.bodyComplete then none else some (b.onData chunk).2
    | .read capacity ret =>
      if 0 < capacity ∧ (b.read capacity).1 = ret then some (b.read capacity).2.2 else none
    | .finish => if b.bodyComplete then none else some b.complete

def delivered : List Section → Bytes
  | [] => []
  | .onData chunk :: sections => chunk ++ delivered sections
  | _ :: sections => delivered sections

def handedOut : List Section → Bytes
  | [] => []
  | .read _ (.copied out) :: sections => out ++ handedOut sections
  | _ :: sections => handedOut sections

theorem Body.onData_unread {b : Body} (chunk : Bytes) (within : b.bodyOffset ≤ b.body.length) :
    (b.onData chunk).2.unread = b.unread ++ chunk :=
  List.drop_append_of_le_length within

theorem Body.onData_wellFormed {b : Body} (chunk : Bytes) (wf : b.WellFormed) :
    (b.onData chunk).2.WellFormed := by
  unfold WellFormed available at *
  simp only [onData, List.length_append]
  omega

theorem bodyMachine_wellFormed {a b : Body} {event : Section} (wf : a.WellFormed)
    (stepped : bodyMachine.step a event = some b) : b.WellFormed := by
  cases event with
  | onData chunk =>
    simp only [bodyMachine, Option.ite_none_left_eq_some, Option.some.injEq] at stepped
    obtain ⟨_, rfl⟩ := stepped
    exact Body.onData_wellFormed chunk wf
  | read capacity ret =>
    simp only [bodyMachine, Option.ite_none_right_eq_some, Option.some.injEq] at stepped
    obtain ⟨⟨positive, _⟩, rfl⟩ := stepped
    exact (Body.read_spec a positive).wellFormed wf
  | finish =>
    simp only [bodyMachine, Option.ite_none_left_eq_some, Option.some.injEq] at stepped
    obtain ⟨_, rfl⟩ := stepped
    exact wf

def ReadReturn.got : ReadReturn → Option Bytes
  | .eof => none
  | .copied out => some out

def Section.event : Section → Conduit.Event UInt8
  | .onData chunk => .write chunk
  | .read capacity ret => .take capacity ret.got
  | .finish => .close

def Body.Represents (b : Body) (c : Conduit UInt8) : Prop :=
  b.WellFormed ∧ c.remaining = b.unread ∧ c.closed = b.bodyComplete

theorem Body.Represents.got {b : Body} {c : Conduit UInt8} (rep : b.Represents c) {capacity : Nat}
    (positive : 0 < capacity) : c.got capacity = (b.read capacity).1.got := by
  rw [(read_spec b positive).returned]
  simp only [Conduit.got, rep.2.1, rep.2.2]
  split <;> simp_all [ReadReturn.got]

/-- Reclaiming the front and pausing are invisible: the body refines the conduit. -/
def bodySimulation : Machine.Simulation bodyMachine (Conduit.machine (α := UInt8)) Body.Represents where
  events _ event := [event.event]
  played := by
    intro a c event b rep stepped
    have wf := bodyMachine_wellFormed rep.1 stepped
    simp only [Machine.run_cons, Machine.run_nil, Option.some.injEq, exists_eq_right]
    cases event with
    | onData chunk =>
      simp only [bodyMachine, Option.ite_none_left_eq_some, Option.some.injEq] at stepped
      obtain ⟨incomplete, rfl⟩ := stepped
      refine ⟨c.write chunk, ?_, wf, ?_, rep.2.2⟩
      · simp [Conduit.machine, Section.event, rep.2.2, incomplete]
      · rw [Conduit.remaining_write, rep.2.1, Body.onData_unread chunk rep.1.1]
    | read capacity ret =>
      simp only [bodyMachine, Option.ite_none_right_eq_some, Option.some.injEq] at stepped
      obtain ⟨⟨positive, rfl⟩, rfl⟩ := stepped
      have spec := Body.read_spec a positive
      refine ⟨c.take capacity, ?_, wf, ?_, ?_⟩
      · simp [Conduit.machine, Section.event, rep.got positive]
      · rw [Conduit.remaining_take, rep.2.1, spec.unread]
      · rw [spec.complete]
        exact rep.2.2
    | finish =>
      simp only [bodyMachine, Option.ite_none_left_eq_some, Option.some.injEq] at stepped
      obtain ⟨_, rfl⟩ := stepped
      exact ⟨c.close, rfl, wf, rep.2.1, rfl⟩

theorem bodySimulation_trace {a b : Body} {sections : List Section}
    (ran : bodyMachine.run a sections = some b) : bodySimulation.trace a sections = sections.map Section.event := by
  induction sections generalizing a with
  | nil => rfl
  | cons event sections ih =>
    obtain ⟨u, stepped, rest⟩ := Machine.run_cons.mp ran
    simp only [Machine.Simulation.trace, stepped, ih rest, List.map_cons]
    rfl

theorem writtenBy_events (sections : List Section) :
    Conduit.writtenBy (sections.map Section.event) = delivered sections := by
  induction sections with
  | nil => rfl
  | cons event sections ih => cases event <;> simp [Section.event, Conduit.writtenBy, delivered, ih]

theorem takenBy_events (sections : List Section) :
    Conduit.takenBy (sections.map Section.event) = handedOut sections := by
  induction sections with
  | nil => rfl
  | cons event sections ih =>
    cases event with
    | read capacity ret =>
      cases ret <;> simp [Section.event, ReadReturn.got, Conduit.takenBy, handedOut, ih]
    | onData chunk => simp [Section.event, Conduit.takenBy, handedOut, ih]
    | finish => simp [Section.event, Conduit.takenBy, handedOut, ih]

theorem close_mem_events (sections : List Section) :
    Conduit.Event.close ∈ sections.map Section.event ↔ Section.finish ∈ sections := by
  simp only [List.mem_map]
  constructor
  · rintro ⟨event, member, closes⟩
    cases event with
    | finish => exact member
    | onData chunk => cases closes
    | read capacity ret => cases closes
  · intro member
    exact ⟨_, member, rfl⟩

theorem initial_represents : Body.initial.Represents (Conduit.empty : Conduit UInt8) :=
  ⟨Body.initial_wellFormed, rfl, rfl⟩

theorem body_run_refines {a b : Body} {c : Conduit UInt8} {sections : List Section} (rep : a.Represents c)
    (ran : bodyMachine.run a sections = some b) :
    ∃ d, Conduit.machine.run c (sections.map Section.event) = some d ∧ b.Represents d := by
  have played := bodySimulation.run_trace rep ran
  rwa [bodySimulation_trace ran] at played

theorem body_conserves {sections : List Section} {b : Body}
    (ran : bodyMachine.run Body.initial sections = some b) :
    handedOut sections ++ b.unread = delivered sections := by
  obtain ⟨d, played, rep⟩ := body_run_refines initial_represents ran
  have conserved := Conduit.run_conserves played
  rwa [takenBy_events, writtenBy_events, rep.2.1, Conduit.remaining_empty, List.nil_append] at conserved

theorem body_complete_iff {sections : List Section} {b : Body}
    (ran : bodyMachine.run Body.initial sections = some b) : b.bodyComplete = true ↔ Section.finish ∈ sections := by
  obtain ⟨d, played, rep⟩ := body_run_refines initial_represents ran
  rw [← rep.2.2, ← close_mem_events]
  exact Conduit.run_closed played rfl

theorem read_code_zero {b : Body} {capacity : Nat} (positive : 0 < capacity) :
    (b.read capacity).1.code = 0 ↔ b.unread = [] ∧ b.bodyComplete = false := by
  have nonzero : capacity ≠ 0 := by omega
  rw [(Body.read_spec b positive).returned]
  split
  · rename_i ended
    simp [ReadReturn.code, CRONET_EOF, ended.2]
  · rename_i going
    simp only [ReadReturn.code, Int.natCast_eq_zero, List.length_eq_zero_iff, List.take_eq_nil_iff, nonzero,
      false_or]
    constructor
    · intro drained
      exact ⟨drained, by simpa [drained] using going⟩
    · exact And.left

theorem read_code_eof {b : Body} {capacity : Nat} (positive : 0 < capacity) :
    (b.read capacity).1.code = CRONET_EOF ↔ b.unread = [] ∧ b.bodyComplete = true := by
  rw [(Body.read_spec b positive).returned]
  split
  · rename_i ended
    simp [ReadReturn.code, ended]
  · rename_i going
    simp only [ReadReturn.code, CRONET_EOF, going, iff_false]
    omega

theorem unread_eq_nil_iff {sections : List Section} {b : Body}
    (ran : bodyMachine.run Body.initial sections = some b) : b.unread = [] ↔ handedOut sections = delivered sections := by
  rw [← body_conserves ran]
  exact List.self_eq_append_right.symm

theorem body_run_ended {a b : Body} {c : Conduit UInt8} {sections : List Section} (rep : a.Represents c)
    (drained : a.unread = []) (complete : a.bodyComplete = true) (ran : bodyMachine.run a sections = some b) :
    b.unread = [] ∧ b.bodyComplete = true := by
  obtain ⟨d, played, rep'⟩ := body_run_refines rep ran
  have ended := Conduit.run_ended played (rep.2.1.trans drained) (rep.2.2.trans complete)
  exact ⟨rep'.2.1.symm.trans ended.1, rep'.2.2.symm.trans ended.2⟩

/-- Every interleaving of `OnData`, `Read` and `Finish` by `body_lock_` hands the body over whole. -/
theorem body_transfer {sections : List Section} {b : Body}
    (ran : bodyMachine.run Body.initial sections = some b) :
    b.bodyOffset ≤ b.body.length ∧
    handedOut sections ++ b.unread = delivered sections ∧
    (b.bodyComplete = true ↔ Section.finish ∈ sections) ∧
    (∀ capacity, 0 < capacity → (b.read capacity).1.code = 0 → b.unread = [] ∧ b.bodyComplete = false) ∧
    (∀ capacity, 0 < capacity → ((b.read capacity).1.code = CRONET_EOF ↔
      Section.finish ∈ sections ∧ handedOut sections = delivered sections)) ∧
    (Section.finish ∈ sections → handedOut sections = delivered sections →
      ∀ later after, bodyMachine.run b later = some after →
        ∀ capacity, 0 < capacity → (after.read capacity).1.code = CRONET_EOF) := by
  obtain ⟨d, played, rep⟩ := body_run_refines initial_represents ran
  refine ⟨rep.1.1, body_conserves ran, body_complete_iff ran, ?_, ?_, ?_⟩
  · exact fun capacity positive zero => (read_code_zero positive).mp zero
  · intro capacity positive
    rw [read_code_eof positive, unread_eq_nil_iff ran, body_complete_iff ran, and_comm]
  · intro finished all later after ran' capacity positive
    have drained := (unread_eq_nil_iff ran).mpr all
    have complete := (body_complete_iff ran).mpr finished
    exact (read_code_eof positive).mpr (body_run_ended rep drained complete ran')

/-- Two readers over two chunks: the first read reclaims the front, the second takes the rest after `Finish`, and whoever
    reads next, and after it, meets the end. -/
theorem body_transfer_two_chunks :
    let sections := [.onData [1, 2, 3], .read 2 (.copied [1, 2]), .onData [4], .finish, .read 4 (.copied [3, 4])]
    ∃ b after, bodyMachine.run Body.initial sections = some b ∧ bodyMachine.run b [.read 1 .eof] = some after ∧
      handedOut sections ++ b.unread = delivered sections ∧ (b.read 1).1.code = CRONET_EOF ∧
      (after.read 7).1.code = CRONET_EOF := by
  intro sections
  have ran : bodyMachine.run Body.initial sections = some ⟨[], 0, true, false⟩ := by decide
  have later : bodyMachine.run ⟨[], 0, true, false⟩ [.read 1 .eof] = some ⟨[], 0, true, false⟩ := by decide
  rcases body_transfer ran with ⟨_, conserved, _, _, ends, stays⟩
  have finished : Section.finish ∈ sections := by decide
  have all : handedOut sections = delivered sections := by decide
  exact ⟨_, _, ran, later, conserved, (ends 1 (by decide)).mpr ⟨finished, all⟩,
    stays finished all _ _ later 7 (by decide)⟩

end Cronet.Native
