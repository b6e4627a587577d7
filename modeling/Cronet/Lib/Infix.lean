import Mathlib.Data.List.Infix

namespace List

variable {α : Type*}

def Unbordered (pat : List α) : Prop := ∀ front back, pat = front ++ back → front ≠ [] → back <+: pat → back = []

theorem unbordered_cons {a : α} {rest : List α} (once : a ∉ rest) : Unbordered (a :: rest) := by
  intro front back split nonempty begins
  cases front with
  | nil => exact absurd rfl nonempty
  | cons c front =>
    cases back with
    | nil => rfl
    | cons b back =>
      obtain ⟨tail, shape⟩ := begins
      obtain rfl := (List.cons.inj shape).1
      have inside : b ∈ rest := by
        rw [(List.cons.inj split).2]
        exact mem_append_right front mem_cons_self
      exact absurd inside once

theorem first_infix {pat before after left right : List α} (unbordered : Unbordered pat) (absent : ¬pat <:+: before)
    (found : before ++ (pat ++ after) = left ++ (pat ++ right)) : before.length ≤ left.length := by
  rcases append_eq_append_iff.mp found with ⟨between, rfl, _⟩ | ⟨between, rfl, overlap⟩
  · simp
  rcases append_eq_append_iff.mp overlap with ⟨extra, rfl, _⟩ | ⟨extra, split, continues⟩
  · exact absurd ⟨left, extra, append_assoc ..⟩ absent
  · by_contra longer
    have nonempty : between ≠ [] := by
      rintro rfl
      exact longer (by simp)
    have begins : extra <+: pat := by
      refine prefix_of_prefix_length_le ⟨right, continues.symm⟩ (prefix_append pat after) ?_
      rw [split, length_append]
      exact Nat.le_add_left _ _
    obtain rfl := unbordered between extra split nonempty begins
    rw [append_nil] at split
    exact absent ⟨left, [], by rw [split, append_nil]⟩

theorem dropInfix?_first [BEq α] [LawfulBEq α] {pat before after : List α} (unbordered : Unbordered pat)
    (absent : ¬pat <:+: before) : (before ++ (pat ++ after)).dropInfix? pat = some (before, after) := by
  rw [dropInfix?_eq_some_iff]
  refine ⟨⟨pat, (append_assoc ..).symm, beq_self_eq_true pat⟩, fun left pat' right found same => ?_⟩
  obtain rfl := eq_of_beq same
  exact first_infix unbordered absent (by rw [found, append_assoc])

theorem exists_first_infix {pat text : List α} (nonempty : pat ≠ []) (inside : pat <:+: text) :
    ∃ before after, text = before ++ (pat ++ after) ∧ ¬pat <:+: before := by
  induction text with
  | nil => exact absurd (eq_nil_of_infix_nil inside) nonempty
  | cons a text ih =>
    by_cases begins : pat <+: a :: text
    · obtain ⟨after, split⟩ := begins
      exact ⟨[], after, split.symm, fun empty => nonempty (eq_nil_of_infix_nil empty)⟩
    · have further : pat <:+: text := (infix_cons_iff.mp inside).resolve_left begins
      obtain ⟨before, after, rfl, absent⟩ := ih further
      refine ⟨a :: before, after, rfl, fun early => ?_⟩
      rcases infix_cons_iff.mp early with head | tail
      · exact begins (head.trans (prefix_append (a :: before) (pat ++ after)))
      · exact absent tail

theorem dropInfix?_eq_none [BEq α] [LawfulBEq α] {pat text : List α} (unbordered : Unbordered pat) (nonempty : pat ≠ []) :
    text.dropInfix? pat = none ↔ ¬pat <:+: text := by
  constructor
  · intro missed inside
    obtain ⟨before, after, rfl, absent⟩ := exists_first_infix nonempty inside
    rw [dropInfix?_first unbordered absent] at missed
    cases missed
  · intro absent
    cases found : text.dropInfix? pat with
    | none => rfl
    | some cut =>
      obtain ⟨⟨pat', split, same⟩, _⟩ := dropInfix?_eq_some_iff.mp found
      obtain rfl := eq_of_beq same
      exact absurd ⟨cut.1, cut.2, split.symm⟩ absent

theorem dropInfix?_cut [BEq α] [LawfulBEq α] {pat text before after : List α} (unbordered : Unbordered pat)
    (nonempty : pat ≠ []) (found : text.dropInfix? pat = some (before, after)) :
    text = before ++ (pat ++ after) ∧ ¬pat <:+: before := by
  obtain ⟨⟨pat', split, same⟩, _⟩ := dropInfix?_eq_some_iff.mp found
  obtain rfl := eq_of_beq same
  have inside : pat' <:+: text := ⟨before, after, split.symm⟩
  obtain ⟨front, back, first, absent⟩ := exists_first_infix nonempty inside
  rw [first, dropInfix?_first unbordered absent] at found
  cases found
  exact ⟨first, absent⟩

theorem not_infix_of_head {a : α} {rest text : List α} (absent : a ∉ text) : ¬(a :: rest) <:+: text :=
  fun inside => absent (inside.subset mem_cons_self)

end List
