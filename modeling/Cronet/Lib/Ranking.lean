import Cronet.Lib.Machine
import Mathlib.Algebra.BigOperators.Group.Finset.Basic
import Mathlib.Data.List.Count

universe u v

theorem sum_update {ι : Type u} {α : Type v} [DecidableEq ι] {s : Finset ι} {i : ι} (member : i ∈ s) (g : α → Nat)
    (f : ι → α) (a : α) : (s.sum fun j => g (Function.update f i a j)) + g (f i) = (s.sum fun j => g (f j)) + g a := by
  have rest : ((s.erase i).sum fun j => g (Function.update f i a j)) = (s.erase i).sum fun j => g (f j) := by
    apply Finset.sum_congr rfl
    intro j other
    rw [Function.update_of_ne (Finset.ne_of_mem_erase other)]
  have after := Finset.add_sum_erase s (fun j => g (Function.update f i a j)) member
  have before := Finset.add_sum_erase s (fun j => g (f j)) member
  rw [Function.update_self] at after
  omega

namespace Machine

variable {State : Type u} {Label : Type v} {m : Machine State Label}

/-- A number that the steps that `works` marks bring down and no step brings up, in the states of `Inv`, which the
    steps keep. -/
structure Ranking (m : Machine State Label) (works : Label → Bool) (Inv : State → Prop) where
  rank : State → Nat
  kept : ∀ {s label t}, Inv s → m.step s label = some t → Inv t
  falls : ∀ {s label t}, Inv s → m.step s label = some t → works label = true → rank t < rank s
  stays : ∀ {s label t}, Inv s → m.step s label = some t → rank t ≤ rank s

namespace Ranking

variable {works : Label → Bool} {Inv : State → Prop} {s t : State} {labels : List Label}

theorem run (r : Ranking m works Inv) (holds : Inv s) (ran : m.run s labels = some t) : Inv t :=
  invariant Inv holds (fun _ _ _ held stepped => r.kept held stepped) ran

theorem spent (r : Ranking m works Inv) (holds : Inv s) (ran : m.run s labels = some t) :
    labels.countP works + r.rank t ≤ r.rank s := by
  induction labels generalizing s with
  | nil =>
    cases ran
    simp
  | cons label labels ih =>
    obtain ⟨u, stepped, rest⟩ := run_cons.mp ran
    have later := ih (r.kept holds stepped) rest
    by_cases work : works label = true
    · have fell := r.falls holds stepped work
      rw [List.countP_cons_of_pos work]
      omega
    · have stayed := r.stays holds stepped
      rw [List.countP_cons_of_neg work]
      omega

/-- A run that does as much as the rank allows has come to where nothing is left to do. -/
theorem done_of_spent (r : Ranking m works Inv) (Done : State → Prop)
    (progress : ∀ s, Inv s → ¬ Done s → ∃ label t, works label = true ∧ m.step s label = some t)
    (holds : Inv s) (ran : m.run s labels = some t) (spent : r.rank s ≤ labels.countP works) : Done t := by
  by_contra undone
  obtain ⟨label, u, work, stepped⟩ := progress t (r.run holds ran) undone
  have fell := r.falls (r.run holds ran) stepped work
  have paid := r.spent holds ran
  omega

end Ranking

end Machine
