import Mathlib.Data.Sum.Basic

/-- A deterministic loop that carries the measure it ends by: each step ends it or goes on. -/
structure Descent (σ ρ : Type) where
  step : σ → ρ ⊕ σ
  measure : σ → Nat
  descends : ∀ s t, step s = .inr t → measure t < measure s

namespace Descent

variable {σ τ ρ α : Type}

def run (d : Descent σ ρ) (s : σ) : List σ × ρ :=
  match _next : d.step s with
  | .inl r => ([s], r)
  | .inr t => (s :: (d.run t).1, (d.run t).2)
termination_by d.measure s
decreasing_by all_goals exact d.descends s t _next

def trace (d : Descent σ ρ) (see : σ → α) (s : σ) : List α × ρ := ((d.run s).1.map see, (d.run s).2)

/-- What is settled by the states a step goes on to holds of every state. -/
theorem induction (d : Descent σ ρ) {P : σ → Prop} (next : ∀ s, (∀ t, d.step s = .inr t → P t) → P s) (s : σ) : P s :=
  next s fun t _ => d.induction next t
termination_by d.measure s
decreasing_by exact d.descends s t ‹_›

end Descent
