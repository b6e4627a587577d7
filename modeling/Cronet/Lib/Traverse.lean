import Mathlib.Data.List.Forall2

/-- A traversal that may fail succeeds where it does so at each element. -/
theorem Except.mapM_ok_iff {ε α β : Type} {f : α → Except ε β} {as : List α} {bs : List β} :
    as.mapM f = .ok bs ↔ List.Forall₂ (fun a b => f a = .ok b) as bs := by
  induction as generalizing bs with
  | nil => cases bs <;> simp [pure, Except.pure]
  | cons a as ih =>
    rw [List.mapM_cons]
    cases head : f a with
    | error failure => cases bs <;> simp [bind, Except.bind, head]
    | ok b =>
      cases tail : as.mapM f with
      | error failure => cases bs <;> simp [bind, Except.bind, head, tail, ← ih]
      | ok rest => cases bs <;> simp [bind, Except.bind, pure, Except.pure, head, tail, ← ih]

theorem Option.mapM_some_iff {α β : Type} {f : α → Option β} {as : List α} {bs : List β} :
    as.mapM f = some bs ↔ List.Forall₂ (fun a b => f a = some b) as bs := by
  induction as generalizing bs with
  | nil => cases bs <;> simp
  | cons a as ih =>
    rw [List.mapM_cons]
    cases head : f a with
    | none => cases bs <;> simp [head]
    | some b =>
      cases tail : as.mapM f with
      | none => cases bs <;> simp [head, tail, ← ih]
      | some rest => cases bs <;> simp [head, tail, ← ih]

theorem List.Forall₂.meet {α β γ : Type*} {R : α → β → Prop} {S : γ → β → Prop} {as : List α} {bs : List β} {cs : List γ}
    (first : List.Forall₂ R as bs) (second : List.Forall₂ S cs bs) : List.Forall₂ (fun a c => ∃ b, R a b ∧ S c b) as cs := by
  induction first generalizing cs with
  | nil =>
    cases second
    exact .nil
  | cons related rest ih =>
    cases second with
    | cons related' rest' => exact .cons ⟨_, related, related'⟩ (ih rest')

theorem List.Forall₂.exists_of_mem {α β : Type*} {R : α → β → Prop} {as : List α} {bs : List β}
    (all : List.Forall₂ R as bs) {b : β} (member : b ∈ bs) : ∃ a ∈ as, R a b := by
  induction all with
  | nil => cases member
  | @cons a _ _ _ related rest ih =>
    rcases List.mem_cons.mp member with rfl | later
    · exact ⟨a, List.mem_cons_self, related⟩
    · rcases ih later with ⟨other, there, related⟩
      exact ⟨other, List.mem_cons_of_mem a there, related⟩

theorem List.filterMap_set {α β : Type} {f : α → Option β} {as : List α} {index : Nat} {a b : α}
    (found : as[index]? = some a)
    (same : f b = f a) : (as.set index b).filterMap f = as.filterMap f := by
  induction as generalizing index with
  | nil => rfl
  | cons first rest ih =>
    cases index with
    | zero =>
      cases found
      rw [List.set_cons_zero, List.filterMap_cons, List.filterMap_cons, same]
    | succ index =>
      have tail := @ih index (by simpa using found)
      rw [List.set_cons_succ, List.filterMap_cons, List.filterMap_cons, tail]
