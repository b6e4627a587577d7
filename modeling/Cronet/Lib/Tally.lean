import Mathlib.Algebra.BigOperators.Group.Finset.Basic
import Mathlib.Data.Fintype.BigOperators

universe u v

/-- How many members of a finite family satisfy `p`. -/
def tally {ι : Type u} {α : Type v} [Fintype ι] (p : α → Bool) (f : ι → α) : Nat :=
  Finset.univ.sum fun i => (p (f i)).toNat

section Tally

variable {ι : Type u} {α : Type v} [Fintype ι] {p : α → Bool} {f : ι → α}

theorem tally_update [DecidableEq ι] (i : ι) (a : α) :
    tally p (Function.update f i a) + (p (f i)).toNat = tally p f + (p a).toNat := by
  have split : ∀ g : ι → α, tally p g = (p (g i)).toNat + (Finset.univ.erase i).sum fun j => (p (g j)).toNat :=
    fun g => (Finset.add_sum_erase Finset.univ (fun j => (p (g j)).toNat) (Finset.mem_univ i)).symm
  have rest : ((Finset.univ.erase i).sum fun j => (p (Function.update f i a j)).toNat) =
      (Finset.univ.erase i).sum fun j => (p (f j)).toNat :=
    Finset.sum_congr rfl fun j member => by rw [Function.update_of_ne (Finset.ne_of_mem_erase member)]
  rw [split, split f, rest, Function.update_self]
  omega

theorem tally_eq_zero : tally p f = 0 ↔ ∀ i, p (f i) = false := by
  simp [tally, Finset.sum_eq_zero_iff]

theorem tally_pos (i : ι) (counted : p (f i) = true) : 0 < tally p f := by
  rcases Nat.eq_zero_or_pos (tally p f) with zero | positive
  · simp [tally_eq_zero.mp zero i] at counted
  · exact positive

theorem tally_const {a : α} (uncounted : p a = false) : tally p (fun _ : ι => a) = 0 :=
  tally_eq_zero.mpr fun _ => uncounted

end Tally
