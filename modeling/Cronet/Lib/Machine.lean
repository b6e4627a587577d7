import Mathlib.Data.List.Basic
import Mathlib.Data.List.Induction

universe u v w x

/-- A system that takes one labelled step at a time. The label carries every choice the
    environment makes, so a step is a partial function; `none` is a label not enabled. -/
structure Machine (State : Type u) (Label : Type v) where
  step : State → Label → Option State

namespace Machine

variable {State : Type u} {Label : Type v} {m : Machine State Label}

def run (m : Machine State Label) : State → List Label → Option State
  | s, [] => some s
  | s, label :: labels => (m.step s label).bind (m.run · labels)

@[simp] theorem run_nil (s : State) : m.run s [] = some s := rfl

theorem run_cons {s t : State} {label : Label} {labels : List Label} :
    m.run s (label :: labels) = some t ↔ ∃ u, m.step s label = some u ∧ m.run u labels = some t := by
  simp only [run, Option.bind_eq_some_iff]

theorem run_append {s t : State} {first second : List Label} :
    m.run s (first ++ second) = some t ↔ ∃ u, m.run s first = some u ∧ m.run u second = some t := by
  induction first generalizing s with
  | nil => simp
  | cons label first ih =>
    simp only [List.cons_append, run_cons, ih]
    constructor
    · rintro ⟨u, stepped, v, ran, rest⟩
      exact ⟨v, ⟨u, stepped, ran⟩, rest⟩
    · rintro ⟨v, ⟨u, stepped, ran⟩, rest⟩
      exact ⟨u, stepped, v, ran, rest⟩

theorem run_snoc {s t : State} {labels : List Label} {label : Label} :
    m.run s (labels ++ [label]) = some t ↔ ∃ u, m.run s labels = some u ∧ m.step u label = some t := by
  simp only [run_append, run_cons, run_nil, Option.some.injEq, exists_eq_right]

theorem history_invariant (Inv : List Label → State → Prop) {s t : State} {labels : List Label}
    (initial : Inv [] s)
    (preserved : ∀ past a label b, m.run s past = some a → Inv past a → m.step a label = some b →
      Inv (past ++ [label]) b)
    (ran : m.run s labels = some t) : Inv labels t := by
  induction labels using List.reverseRecOn generalizing t with
  | nil =>
    cases ran
    exact initial
  | append_singleton past label ih =>
    obtain ⟨u, before, stepped⟩ := run_snoc.mp ran
    exact preserved past u label t before (ih before) stepped

theorem invariant (Inv : State → Prop) {s t : State} {labels : List Label} (initial : Inv s)
    (preserved : ∀ a label b, Inv a → m.step a label = some b → Inv b)
    (ran : m.run s labels = some t) : Inv t :=
  history_invariant (fun _ => Inv) initial (fun _ a label b _ => preserved a label b) ran

/-- Every step of the run is taken in a state where `C` allows it. -/
def Meets (m : Machine State Label) (C : State → Label → Prop) : State → List Label → Prop
  | _, [] => True
  | s, label :: labels => C s label ∧ ∀ t, m.step s label = some t → m.Meets C t labels

instance decidableMeets {C : State → Label → Prop} [∀ s label, Decidable (C s label)] (s : State) :
    (labels : List Label) → Decidable (m.Meets C s labels)
  | [] => .isTrue trivial
  | label :: labels =>
    match stepped : m.step s label with
    | none => decidable_of_iff (C s label) (by simp [Meets, stepped])
    | some t =>
      have := decidableMeets (C := C) t labels
      decidable_of_iff (C s label ∧ m.Meets C t labels) (by simp [Meets, stepped])

theorem meets_append {C : State → Label → Prop} {s : State} {first second : List Label} :
    m.Meets C s (first ++ second) ↔
      m.Meets C s first ∧ ∀ t, m.run s first = some t → m.Meets C t second := by
  induction first generalizing s with
  | nil => simp [Meets]
  | cons label first ih =>
    simp only [List.cons_append, Meets, ih, run_cons]
    constructor
    · rintro ⟨allowed, rest⟩
      exact ⟨⟨allowed, fun t stepped => (rest t stepped).1⟩,
        fun t ⟨u, stepped, ran⟩ => (rest u stepped).2 t ran⟩
    · rintro ⟨⟨allowed, met⟩, rest⟩
      exact ⟨allowed, fun t stepped => ⟨met t stepped, fun v ran => rest v ⟨t, stepped, ran⟩⟩⟩

theorem meets_snoc {C : State → Label → Prop} {s t : State} {labels : List Label} {label : Label}
    (ran : m.run s labels = some t) :
    m.Meets C s (labels ++ [label]) ↔ m.Meets C s labels ∧ C t label := by
  rw [meets_append]
  constructor
  · rintro ⟨met, last⟩
    exact ⟨met, (last t ran).1⟩
  · rintro ⟨met, allowed⟩
    refine ⟨met, fun u same => ?_⟩
    rw [ran] at same
    cases same
    exact ⟨allowed, fun _ _ => trivial⟩

theorem guarded_invariant {C : State → Label → Prop} (Inv : List Label → State → Prop) {s t : State}
    {labels : List Label} (initial : Inv [] s)
    (preserved : ∀ past a label b, m.run s past = some a → Inv past a → C a label →
      m.step a label = some b → Inv (past ++ [label]) b)
    (met : m.Meets C s labels) (ran : m.run s labels = some t) : Inv labels t := by
  refine history_invariant (fun past a => m.Meets C s past → Inv past a) (fun _ => initial) ?_ ran met
  intro past a label b before held stepped metAll
  obtain ⟨metPast, allowed⟩ := (meets_snoc before).mp metAll
  exact preserved past a label b before (held metPast) allowed stepped

def outputs {Output : Type w} (m : Machine State Label) (out : State → Label → List Output) :
    State → List Label → List Output
  | _, [] => []
  | s, label :: labels =>
    out s label ++ match m.step s label with
      | some t => m.outputs out t labels
      | none => []

section Outputs

variable {Output : Type w} {out : State → Label → List Output}

@[simp] theorem outputs_nil (s : State) : m.outputs out s [] = [] := rfl

theorem outputs_append {s t : State} {first second : List Label} (ran : m.run s first = some t) :
    m.outputs out s (first ++ second) = m.outputs out s first ++ m.outputs out t second := by
  induction first generalizing s with
  | nil =>
    cases ran
    rfl
  | cons label first ih =>
    obtain ⟨u, stepped, rest⟩ := run_cons.mp ran
    simp only [List.cons_append, outputs, stepped, ih rest, List.append_assoc]

theorem outputs_snoc {s t : State} {labels : List Label} (label : Label) (ran : m.run s labels = some t) :
    m.outputs out s (labels ++ [label]) = m.outputs out s labels ++ out t label := by
  rw [outputs_append ran]
  congr 1
  simp only [outputs]
  cases m.step t label <;> simp

theorem output_invariant (Inv : List Output → State → Prop) {s t : State} {labels : List Label} (initial : Inv [] s)
    (preserved : ∀ past a label b, Inv past a → m.step a label = some b → Inv (past ++ out a label) b)
    (ran : m.run s labels = some t) : Inv (m.outputs out s labels) t := by
  refine history_invariant (fun past a => Inv (m.outputs out s past) a) initial ?_ ran
  intro past a label b before held stepped
  rw [outputs_snoc label before]
  exact preserved _ a label b held stepped

end Outputs

section Simulation

variable {Abstract : Type w} {Event : Type x} {n : Machine Abstract Event}

/-- Each concrete step is played by a run of the abstract machine, whose events it names. -/
structure Simulation (m : Machine State Label) (n : Machine Abstract Event) (Rel : State → Abstract → Prop) where
  events : State → Label → List Event
  played : ∀ {s a label t}, Rel s a → m.step s label = some t →
    ∃ b, n.run a (events s label) = some b ∧ Rel t b

def Simulation.trace {Rel : State → Abstract → Prop} (sim : Simulation m n Rel) : State → List Label → List Event
  | _, [] => []
  | s, label :: labels =>
    sim.events s label ++ match m.step s label with
      | some t => sim.trace t labels
      | none => []

theorem Simulation.run_trace {Rel : State → Abstract → Prop} (sim : Simulation m n Rel) {s t : State}
    {a : Abstract} {labels : List Label} (related : Rel s a) (ran : m.run s labels = some t) :
    ∃ b, n.run a (sim.trace s labels) = some b ∧ Rel t b := by
  induction labels generalizing s a with
  | nil =>
    cases ran
    exact ⟨a, rfl, related⟩
  | cons label labels ih =>
    obtain ⟨u, stepped, rest⟩ := run_cons.mp ran
    obtain ⟨c, first, relatedNext⟩ := sim.played related stepped
    obtain ⟨b, second, relatedEnd⟩ := ih relatedNext rest
    simp only [trace, stepped]
    exact ⟨b, run_append.mpr ⟨c, first, second⟩, relatedEnd⟩

end Simulation

end Machine
