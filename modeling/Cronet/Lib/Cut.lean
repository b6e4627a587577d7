import Mathlib.Data.List.Basic

/-- A list cut in two at a separator, as `str.partition` cuts a string. -/
structure Cut (α : Type*) where
  before : List α
  found : Bool
  after : List α
  deriving DecidableEq

namespace Cut

variable {α : Type*} [DecidableEq α]

def first (sep : α) : List α → Cut α
  | [] => ⟨[], false, []⟩
  | c :: rest =>
    if c = sep then ⟨[], true, rest⟩
    else { first sep rest with before := c :: (first sep rest).before }

def last (sep : α) : List α → Cut α
  | [] => ⟨[], false, []⟩
  | c :: rest =>
    if (last sep rest).found then { last sep rest with before := c :: (last sep rest).before }
    else if c = sep then ⟨[], true, rest⟩
    else ⟨[], false, c :: rest⟩

theorem first_nil (sep : α) : first sep [] = ⟨[], false, []⟩ := rfl

theorem first_cons (sep c : α) (rest : List α) : first sep (c :: rest) =
    if c = sep then ⟨[], true, rest⟩ else { first sep rest with before := c :: (first sep rest).before } := rfl

theorem last_nil (sep : α) : last sep [] = ⟨[], false, []⟩ := rfl

theorem last_cons (sep c : α) (rest : List α) : last sep (c :: rest) =
    if (last sep rest).found then { last sep rest with before := c :: (last sep rest).before }
    else if c = sep then ⟨[], true, rest⟩ else ⟨[], false, c :: rest⟩ := rfl

theorem first_found {sep : α} {s : List α} : (first sep s).found = true ↔ sep ∈ s := by
  induction s with
  | nil => simp [first_nil]
  | cons c rest ih =>
    by_cases same : c = sep
    · simp [first_cons, same]
    · simp [first_cons, same, ih, Ne.symm same]

theorem first_of_not_mem {sep : α} {s : List α} (absent : sep ∉ s) : first sep s = ⟨s, false, []⟩ := by
  induction s with
  | nil => rfl
  | cons c rest ih =>
    simp only [List.mem_cons, not_or] at absent
    simp [first_cons, Ne.symm absent.1, ih absent.2]

theorem first_append {sep : α} {before after : List α} (absent : sep ∉ before) :
    first sep (before ++ sep :: after) = ⟨before, true, after⟩ := by
  induction before with
  | nil => simp [first_cons]
  | cons c rest ih =>
    simp only [List.mem_cons, not_or] at absent
    simp [first_cons, Ne.symm absent.1, ih absent.2]

theorem first_before_not_mem (sep : α) (s : List α) : sep ∉ (first sep s).before := by
  induction s with
  | nil => simp [first_nil]
  | cons c rest ih =>
    by_cases same : c = sep
    · simp [first_cons, same]
    · simp [first_cons, same, ih, Ne.symm same]

theorem first_before_subset (sep : α) (s : List α) : (first sep s).before ⊆ s := by
  induction s with
  | nil => exact List.nil_subset _
  | cons c rest ih =>
    by_cases same : c = sep
    · simp [first_cons, same]
    · simp only [first_cons, same, ↓reduceIte]
      exact List.cons_subset_cons c ih

theorem first_after_subset (sep : α) (s : List α) : (first sep s).after ⊆ s := by
  induction s with
  | nil => exact List.nil_subset _
  | cons c rest ih =>
    by_cases same : c = sep
    · simp [first_cons, same]
    · simp only [first_cons, same, ↓reduceIte]
      exact fun x member => List.mem_cons_of_mem c (ih member)

theorem eq_of_first_found {sep : α} {s : List α} (found : (first sep s).found = true) :
    s = (first sep s).before ++ sep :: (first sep s).after := by
  induction s with
  | nil => simp [first_nil] at found
  | cons c rest ih =>
    by_cases same : c = sep
    · simp [first_cons, same]
    · simp only [first_cons, same, ↓reduceIte] at found ⊢
      rw [List.cons_append, ← ih found]

theorem last_found {sep : α} {s : List α} : (last sep s).found = true ↔ sep ∈ s := by
  induction s with
  | nil => simp [last_nil]
  | cons c rest ih =>
    rw [last_cons]
    split
    · rename_i found
      exact iff_of_true found (List.mem_cons_of_mem c (ih.mp found))
    · rename_i missing
      have absent : sep ∉ rest := fun member => missing (ih.mpr member)
      split
      · rename_i same
        exact iff_of_true rfl (same ▸ List.mem_cons_self)
      · rename_i other
        refine iff_of_false Bool.false_ne_true fun member => ?_
        exact (List.mem_cons.mp member).elim (fun same => other same.symm) absent

theorem last_of_not_mem {sep : α} {s : List α} (absent : sep ∉ s) : last sep s = ⟨[], false, s⟩ := by
  cases s with
  | nil => rfl
  | cons c rest =>
    simp only [List.mem_cons, not_or] at absent
    have missing : ¬(last sep rest).found = true := fun found => absent.2 (last_found.mp found)
    rw [last_cons, if_neg missing, if_neg (Ne.symm absent.1)]

theorem last_before_cons {sep c : α} {rest : List α} (member : sep ∈ rest) :
    (last sep (c :: rest)).before = c :: (last sep rest).before := by
  rw [last_cons, if_pos (last_found.mpr member)]

theorem last_append {sep : α} {before after : List α} (absent : sep ∉ after) :
    last sep (before ++ sep :: after) = ⟨before, true, after⟩ := by
  induction before with
  | nil =>
    have missing : ¬(last sep after).found = true := fun found => absent (last_found.mp found)
    rw [List.nil_append, last_cons, if_neg missing, if_pos rfl]
  | cons c rest ih => rw [List.cons_append, last_cons, ih, if_pos rfl]

theorem eq_of_last_found {sep : α} {s : List α} (found : (last sep s).found = true) :
    s = (last sep s).before ++ sep :: (last sep s).after := by
  induction s with
  | nil => cases found
  | cons c rest ih =>
    rw [last_cons] at found ⊢
    split at found
    · rename_i later
      rw [if_pos later, List.cons_append, ← ih later]
    · rename_i missing
      rw [if_neg missing]
      split at found
      · rename_i same
        rw [if_pos same, same]
        rfl
      · cases found

theorem last_after_not_mem (sep : α) (s : List α) : sep ∉ (last sep s).after := by
  induction s with
  | nil => exact List.not_mem_nil
  | cons c rest ih =>
    rw [last_cons]
    split
    · exact ih
    · rename_i missing
      have absent : sep ∉ rest := fun member => missing (last_found.mpr member)
      split
      · exact absent
      · rename_i other
        exact fun member => (List.mem_cons.mp member).elim (fun same => other same.symm) absent

theorem last_after_subset (sep : α) (s : List α) : (last sep s).after ⊆ s := by
  induction s with
  | nil => simp [last_nil]
  | cons c rest ih =>
    rw [last_cons]
    split
    · exact fun x member => List.mem_cons_of_mem _ (ih member)
    · split
      · exact List.subset_cons_self _ _
      · exact List.Subset.refl _

end Cut
