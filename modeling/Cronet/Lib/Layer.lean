import Mathlib.Logic.Basic
import Mathlib.Tactic.ByContra

namespace Cronet.Layer

/-! One list laid over another of the same kind, by a key that may repeat in either. -/

variable {α κ : Type} [DecidableEq κ] (key : α → κ)

def sharing (k : κ) (xs : List α) : List α := xs.filter fun x => key x = k

def outside (ks : List κ) (xs : List α) : List α := xs.filter fun x => key x ∉ ks

def layer (own : List α) (emitted : List κ) : List α → List α
  | [] => outside key emitted own
  | d :: rest =>
    if key d ∉ own.map key then d :: layer own emitted rest
    else if key d ∉ emitted then sharing key (key d) own ++ layer own (key d :: emitted) rest
    else layer own emitted rest

def firsts (xs : List α) : List κ := (xs.map key).eraseDups

variable {key} {own lower rest xs : List α} {emitted ks : List κ} {d x : α} {k : κ}

theorem layer_nil : layer key own emitted [] = outside key emitted own := rfl

theorem layer_free (free : key d ∉ own.map key) :
    layer key own emitted (d :: rest) = d :: layer key own emitted rest := by
  rw [layer, if_pos free]

theorem layer_first (taken : key d ∈ own.map key) (fresh : key d ∉ emitted) :
    layer key own emitted (d :: rest) = sharing key (key d) own ++ layer key own (key d :: emitted) rest := by
  rw [layer, if_neg (not_not_intro taken), if_pos fresh]

theorem layer_again (taken : key d ∈ own.map key) (again : key d ∈ emitted) :
    layer key own emitted (d :: rest) = layer key own emitted rest := by
  rw [layer, if_neg (not_not_intro taken), if_neg (not_not_intro again)]

theorem mem_sharing : x ∈ sharing key k xs ↔ x ∈ xs ∧ key x = k := by
  rw [sharing, List.mem_filter, decide_eq_true_eq]

theorem mem_outside : x ∈ outside key ks xs ↔ x ∈ xs ∧ key x ∉ ks := by
  rw [outside, List.mem_filter, decide_eq_true_eq]

theorem sharing_append (xs ys : List α) : sharing key k (xs ++ ys) = sharing key k xs ++ sharing key k ys :=
  List.filter_append ..

theorem outside_append (xs ys : List α) : outside key ks (xs ++ ys) = outside key ks xs ++ outside key ks ys :=
  List.filter_append ..

theorem sharing_cons_same (same : key d = k) : sharing key k (d :: xs) = d :: sharing key k xs :=
  List.filter_cons_of_pos (decide_eq_true same)

theorem sharing_cons_other (other : key d ≠ k) : sharing key k (d :: xs) = sharing key k xs :=
  List.filter_cons_of_neg fun same => other (of_decide_eq_true same)

theorem outside_cons_free (free : key d ∉ ks) : outside key ks (d :: xs) = d :: outside key ks xs :=
  List.filter_cons_of_pos (decide_eq_true free)

theorem outside_cons_taken (taken : key d ∈ ks) : outside key ks (d :: xs) = outside key ks xs :=
  List.filter_cons_of_neg fun free => of_decide_eq_true free taken

theorem sharing_eq_nil : sharing key k xs = [] ↔ k ∉ xs.map key := by
  rw [sharing, List.filter_eq_nil_iff, List.mem_map]
  constructor
  · intro none ⟨x, member, same⟩
    exact none x member (decide_eq_true same)
  · intro none x member same
    exact none ⟨x, member, of_decide_eq_true same⟩

theorem outside_eq_nil : outside key ks xs = [] ↔ ∀ x ∈ xs, key x ∈ ks := by
  rw [outside, List.filter_eq_nil_iff]
  simp only [decide_eq_true_eq, not_not]

theorem sharing_sharing (xs : List α) : sharing key k (sharing key k xs) = sharing key k xs := by
  rw [sharing, sharing, List.filter_filter]
  simp only [Bool.and_self]

theorem sharing_sharing_other {j : κ} (other : k ≠ j) (xs : List α) : sharing key k (sharing key j xs) = [] := by
  rw [sharing_eq_nil, List.mem_map]
  intro ⟨x, member, same⟩
  exact other (same.symm.trans (mem_sharing.mp member).2)

theorem sharing_outside (free : k ∉ ks) (xs : List α) : sharing key k (outside key ks xs) = sharing key k xs := by
  rw [sharing, outside, List.filter_filter, sharing]
  apply List.filter_congr
  intro x _
  by_cases same : key x = k
  · simp [same, free]
  · simp [same]

theorem sharing_outside_taken (taken : k ∈ ks) (xs : List α) : sharing key k (outside key ks xs) = [] := by
  rw [sharing_eq_nil, List.mem_map]
  intro ⟨x, member, same⟩
  exact (mem_outside.mp member).2 (same ▸ taken)

theorem outside_sharing (free : k ∉ ks) (xs : List α) : outside key ks (sharing key k xs) = sharing key k xs := by
  rw [outside, List.filter_eq_self]
  intro x member
  exact decide_eq_true ((mem_sharing.mp member).2 ▸ free)

theorem outside_sharing_taken (taken : k ∈ ks) (xs : List α) : outside key ks (sharing key k xs) = [] := by
  rw [outside_eq_nil]
  intro x member
  exact (mem_sharing.mp member).2 ▸ taken

theorem outside_congr {js : List κ} (same : ∀ x ∈ xs, key x ∈ ks ↔ key x ∈ js) : outside key ks xs = outside key js xs := by
  apply List.filter_congr
  intro x member
  rw [decide_eq_decide, same x member]

theorem outside_nil : outside key [] xs = xs := List.filter_eq_self.mpr fun _ _ => decide_eq_true List.not_mem_nil

theorem outside_outside (js ks : List κ) (xs : List α) :
    outside key js (outside key ks xs) = outside key (js ++ ks) xs := by
  rw [outside, outside, List.filter_filter, outside]
  apply List.filter_congr
  intro x _
  rw [← Bool.decide_and, decide_eq_decide, List.mem_append, not_or]

theorem sharing_layer_own (taken : k ∈ own.map key) :
    sharing key k (layer key own emitted lower) = if k ∈ emitted then [] else sharing key k own := by
  induction lower generalizing emitted with
  | nil =>
    rw [layer_nil]
    split
    · exact sharing_outside_taken ‹_› own
    · exact sharing_outside ‹_› own
  | cons d rest ih =>
    by_cases free : key d ∉ own.map key
    · have other : key d ≠ k := fun same => free (same ▸ taken)
      rw [layer_free free, sharing_cons_other other, ih]
    · rw [not_not] at free
      by_cases fresh : key d ∉ emitted
      · rw [layer_first free fresh, sharing_append, ih]
        by_cases same : k = key d
        · subst same
          rw [sharing_sharing, if_pos List.mem_cons_self, if_neg fresh, List.append_nil]
        · rw [sharing_sharing_other same, List.nil_append]
          simp only [List.mem_cons, same, false_or]
      · rw [layer_again free (not_not.mp fresh), ih]

theorem sharing_layer_lower (free : k ∉ own.map key) :
    sharing key k (layer key own emitted lower) = sharing key k lower := by
  have silent : sharing key k own = [] := sharing_eq_nil.mpr free
  induction lower generalizing emitted with
  | nil =>
    rw [layer_nil]
    by_cases already : k ∈ emitted
    · exact sharing_outside_taken already own
    · rw [sharing_outside already, silent]
      rfl
  | cons d rest ih =>
    by_cases above : key d ∉ own.map key
    · rw [layer_free above]
      by_cases same : key d = k
      · rw [sharing_cons_same same, sharing_cons_same same, ih]
      · rw [sharing_cons_other same, sharing_cons_other same, ih]
    · rw [not_not] at above
      have other : key d ≠ k := fun same => free (same ▸ above)
      rw [sharing_cons_other other]
      by_cases fresh : key d ∉ emitted
      · rw [layer_first above fresh, sharing_append, sharing_sharing_other other.symm, List.nil_append, ih]
      · rw [layer_again above (not_not.mp fresh), ih]

theorem mem_keys_layer : k ∈ (layer key own [] lower).map key ↔ k ∈ own.map key ∨ k ∈ lower.map key := by
  by_cases taken : k ∈ own.map key
  · have kept : sharing key k (layer key own [] lower) = if k ∈ [] then [] else sharing key k own :=
      sharing_layer_own taken
    rw [if_neg List.not_mem_nil] at kept
    have there : k ∈ (layer key own [] lower).map key := by
      by_contra absent
      rw [sharing_eq_nil.mpr absent] at kept
      exact sharing_eq_nil.mp kept.symm taken
    exact iff_of_true there (.inl taken)
  · have kept : sharing key k (layer key own [] lower) = sharing key k lower := sharing_layer_lower taken
    rw [or_iff_right taken, ← not_iff_not, ← sharing_eq_nil, ← sharing_eq_nil, kept]

theorem outside_layer (done : List κ)
    (apart : ∀ k ∈ own.map key, k ∈ done ↔ k ∈ emitted ∨ k ∈ ks) :
    outside key ks (layer key own emitted lower) = layer key own done (outside key ks lower) := by
  induction lower generalizing emitted done with
  | nil =>
    rw [layer_nil, outside_outside]
    apply outside_congr
    intro x member
    rw [List.mem_append, apart _ (List.mem_map_of_mem member), or_comm]
  | cons d rest ih =>
    by_cases free : key d ∉ own.map key
    · rw [layer_free free]
      by_cases left : key d ∈ ks
      · rw [outside_cons_taken left, outside_cons_taken left, ih _ apart]
      · rw [outside_cons_free left, outside_cons_free left, layer_free free, ih _ apart]
    · rw [not_not] at free
      by_cases left : key d ∈ ks
      · rw [outside_cons_taken left]
        by_cases fresh : key d ∉ emitted
        · rw [layer_first free fresh, outside_append, outside_sharing_taken left, List.nil_append]
          apply ih
          intro k member
          rw [apart k member, List.mem_cons]
          constructor
          · exact fun either => either.imp_left .inr
          · rintro ((rfl | again) | out)
            · exact .inr left
            · exact .inl again
            · exact .inr out
        · rw [layer_again free (not_not.mp fresh), ih _ apart]
      · rw [outside_cons_free left]
        have same : key d ∈ done ↔ key d ∈ emitted := by rw [apart _ free, or_iff_left left]
        by_cases fresh : key d ∉ emitted
        · rw [layer_first free fresh, layer_first free (mt same.mp fresh), outside_append, outside_sharing left]
          congr 1
          apply ih
          intro k member
          rw [List.mem_cons, List.mem_cons, apart k member, or_assoc]
        · rw [layer_again free (not_not.mp fresh), layer_again free (same.mpr (not_not.mp fresh)), ih _ apart]

theorem layer_outside_own (done : ∀ k ∈ own.map key, k ∈ emitted) (above : ∀ x ∈ lower, key x ∉ own.map key) :
    layer key own emitted lower = lower := by
  induction lower with
  | nil =>
    rw [layer_nil, outside_eq_nil]
    exact fun x member => done _ (List.mem_map_of_mem member)
  | cons d rest ih =>
    rw [layer_free (above d List.mem_cons_self), ih fun x member => above x (List.mem_cons_of_mem d member)]

theorem outside_layer_own :
    outside key (own.map key) (layer key own [] lower) = outside key (own.map key) lower := by
  rw [outside_layer (own.map key) fun k member => iff_of_true member (.inr member)]
  exact layer_outside_own (fun _ member => member) fun x member => (mem_outside.mp member).2

theorem layer_run_again (same : ∀ x ∈ xs, key x = k) (taken : k ∈ own.map key) (again : k ∈ emitted) :
    layer key own emitted (xs ++ rest) = layer key own emitted rest := by
  induction xs with
  | nil => rfl
  | cons x xs ih =>
    have head := same x List.mem_cons_self
    rw [List.cons_append, layer_again (head ▸ taken) (head ▸ again)]
    exact ih fun y member => same y (List.mem_cons_of_mem x member)

theorem layer_run_first (same : ∀ x ∈ xs, key x = k) (nonempty : xs ≠ []) (taken : k ∈ own.map key)
    (fresh : k ∉ emitted) :
    layer key own emitted (xs ++ rest) = sharing key k own ++ layer key own (k :: emitted) rest := by
  cases xs with
  | nil => exact absurd rfl nonempty
  | cons x xs =>
    have head := same x List.mem_cons_self
    rw [List.cons_append, layer_first (head ▸ taken) (head ▸ fresh), head]
    congr 1
    exact layer_run_again (fun y member => same y (List.mem_cons_of_mem x member)) taken List.mem_cons_self

theorem layer_run_free (free : ∀ x ∈ xs, key x ∉ own.map key) :
    layer key own emitted (xs ++ rest) = xs ++ layer key own emitted rest := by
  induction xs with
  | nil => rfl
  | cons x xs ih =>
    rw [List.cons_append, layer_free (free x List.mem_cons_self), ih fun y member => free y (List.mem_cons_of_mem x member),
      List.cons_append]

theorem layer_empty : layer key own [] [] = own := outside_nil

theorem empty_layer : layer key [] [] lower = lower :=
  layer_outside_own (fun _ member => (List.not_mem_nil member).elim) fun _ _ => List.not_mem_nil

theorem firsts_cons : firsts key (x :: xs) = key x :: firsts key (outside key [key x] xs) := by
  rw [firsts, List.map_cons, List.eraseDups_cons, firsts, outside, List.filter_map]
  congr 3
  apply List.filter_congr
  intro y _
  simp [Bool.beq_eq_decide_eq]

theorem firsts_outside : firsts key (outside key ks xs) = (firsts key xs).filter fun k => k ∉ ks := by
  induction xs generalizing ks with
  | nil => rfl
  | cons x xs ih =>
    rw [firsts_cons, ih]
    by_cases left : key x ∈ ks
    · rw [outside_cons_taken left, ih, List.filter_cons_of_neg (by simpa using left), List.filter_filter]
      apply List.filter_congr
      intro k _
      rw [← Bool.decide_and, decide_eq_decide, List.mem_singleton]
      exact ⟨fun out => ⟨out, fun same => out (same ▸ left)⟩, fun out => out.1⟩
    · rw [outside_cons_free left, List.filter_cons_of_pos (by simpa using left), firsts_cons, outside_outside, ih,
        List.filter_filter]
      congr 1
      apply List.filter_congr
      intro k _
      rw [← Bool.decide_and, decide_eq_decide, List.mem_append, not_or, and_comm]

theorem firsts_append (xs ys : List α) :
    firsts key (xs ++ ys) = firsts key xs ++ (firsts key ys).filter fun k => k ∉ firsts key xs := by
  induction xs with
  | nil => exact (List.filter_eq_self.mpr fun _ _ => decide_eq_true List.not_mem_nil).symm
  | cons x xs ih =>
    rw [List.cons_append, firsts_cons, firsts_cons, firsts_outside, firsts_outside, ih, List.filter_append,
      List.filter_filter, List.cons_append]
    congr 2
    apply List.filter_congr
    intro k _
    rw [← Bool.decide_and, decide_eq_decide, List.mem_singleton, List.mem_cons, List.mem_filter, decide_eq_true_eq,
      List.mem_singleton, not_or]
    exact ⟨fun out => ⟨out.1, fun both => out.2 both.1⟩, fun out => ⟨out.1, fun both => out.2 ⟨both, out.1⟩⟩⟩

theorem firsts_run (same : ∀ x ∈ xs, key x = k) (nonempty : xs ≠ []) (free : k ∉ ks) :
    firsts key (outside key ks (xs ++ rest)) = k :: firsts key (outside key (k :: ks) rest) := by
  cases xs with
  | nil => exact absurd rfl nonempty
  | cons x xs =>
    have head := same x List.mem_cons_self
    have gone : outside key (k :: ks) xs = [] :=
      outside_eq_nil.mpr fun y member => same y (List.mem_cons_of_mem x member) ▸ List.mem_cons_self
    rw [List.cons_append, outside_cons_free (head ▸ free), firsts_cons, head, outside_outside, List.singleton_append,
      outside_append, gone, List.nil_append]

theorem firsts_outside_layer (apart : ∀ k ∈ own.map key, k ∈ emitted ↔ k ∈ ks) :
    firsts key (outside key ks (layer key own emitted lower)) = firsts key (outside key ks (lower ++ own)) := by
  induction lower generalizing emitted ks with
  | nil =>
    rw [layer_nil, outside_outside, List.nil_append]
    congr 1
    apply outside_congr
    intro x member
    rw [List.mem_append, apart _ (List.mem_map_of_mem member), or_self]
  | cons d rest ih =>
    have later : ∀ ks, firsts key (outside key ks (d :: rest ++ own)) =
        if key d ∈ ks then firsts key (outside key ks (rest ++ own))
        else key d :: firsts key (outside key (key d :: ks) (rest ++ own)) := by
      intro ks
      split
      · rw [List.cons_append, outside_cons_taken ‹_›]
      · rw [List.cons_append, outside_cons_free ‹_›, firsts_cons, outside_outside, List.singleton_append]
    rw [later]
    by_cases free : key d ∉ own.map key
    · rw [layer_free free]
      split
      · rw [outside_cons_taken ‹_›, ih apart]
      · rw [outside_cons_free ‹_›, firsts_cons, outside_outside, List.singleton_append, ih]
        intro k member
        have other : k ≠ key d := fun same => free (same ▸ member)
        rw [apart k member, List.mem_cons, or_iff_right other]
    · rw [not_not] at free
      have met := apart _ free
      by_cases fresh : key d ∉ emitted
      · have there : sharing key (key d) own ≠ [] := fun none => sharing_eq_nil.mp none free
        rw [layer_first free fresh, if_neg (mt met.mpr fresh), firsts_run (fun x member => (mem_sharing.mp member).2) there
          (mt met.mpr fresh), ih]
        intro k member
        rw [List.mem_cons, List.mem_cons, apart k member]
      · rw [not_not] at fresh
        rw [layer_again free fresh, if_pos (met.mp fresh), ih apart]

theorem firsts_layer :
    firsts key (layer key own [] lower) =
      firsts key lower ++ (firsts key own).filter fun k => k ∉ firsts key lower := by
  have whole : firsts key (outside key [] (layer key own [] lower)) = firsts key (outside key [] (lower ++ own)) :=
    firsts_outside_layer fun _ _ => Iff.rfl
  rw [outside_nil, outside_nil] at whole
  rw [whole, firsts_append]

theorem layer_assoc_from {upper middle : List α} {done below : List κ} (lower : List α)
    (above : ∀ k ∈ upper.map key, k ∈ emitted ↔ k ∈ done) (between : ∀ k ∈ middle.map key, k ∈ emitted ↔ k ∈ below) :
    layer key (layer key upper [] middle) emitted lower = layer key upper done (layer key middle below lower) := by
  induction lower generalizing emitted done below with
  | nil =>
    rw [layer_nil, layer_nil, outside_layer done (fun k member => by simp [above k member])]
    congr 1
    exact outside_congr fun x member => between _ (List.mem_map_of_mem member)
  | cons c rest ih =>
    have grown : ∀ {ks js : List κ} {k : κ}, (k ∈ ks ↔ k ∈ js) → (k ∈ key c :: ks ↔ k ∈ key c :: js) := by
      intro ks js k same
      rw [List.mem_cons, List.mem_cons, same]
    have apart : ∀ {ks js : List κ} {k : κ}, k ≠ key c → (k ∈ ks ↔ k ∈ js) → (k ∈ key c :: ks ↔ k ∈ js) := by
      intro ks js k other same
      rw [List.mem_cons, or_iff_right other, same]
    by_cases inMiddle : key c ∈ middle.map key
    · have taken : key c ∈ (layer key upper [] middle).map key := mem_keys_layer.mpr (.inr inMiddle)
      have met := between _ inMiddle
      by_cases again : key c ∈ emitted
      · rw [layer_again taken again, layer_again inMiddle (met.mp again), ih above between]
      · have there : sharing key (key c) middle ≠ [] := fun none => sharing_eq_nil.mp none inMiddle
        have runs : ∀ x ∈ sharing key (key c) middle, key x = key c := fun x member => (mem_sharing.mp member).2
        rw [layer_first taken again, layer_first inMiddle (mt met.mpr again)]
        by_cases inUpper : key c ∈ upper.map key
        · rw [layer_run_first runs there inUpper (mt (above _ inUpper).mpr again), sharing_layer_own inUpper,
            if_neg List.not_mem_nil, ih (fun k member => grown (above k member)) fun k member => grown (between k member)]
        · have other : ∀ k ∈ upper.map key, k ≠ key c := fun k member same => inUpper (same ▸ member)
          rw [layer_run_free fun x member => (runs x member).symm ▸ inUpper, sharing_layer_lower inUpper,
            ih (fun k member => apart (other k member) (above k member)) fun k member => grown (between k member)]
    · have other : ∀ k ∈ middle.map key, k ≠ key c := fun k member same => inMiddle (same ▸ member)
      rw [layer_free inMiddle]
      by_cases inUpper : key c ∈ upper.map key
      · have taken : key c ∈ (layer key upper [] middle).map key := mem_keys_layer.mpr (.inl inUpper)
        have met := above _ inUpper
        by_cases again : key c ∈ emitted
        · rw [layer_again taken again, layer_again inUpper (met.mp again), ih above between]
        · rw [layer_first taken again, layer_first inUpper (mt met.mpr again), sharing_layer_own inUpper,
            if_neg List.not_mem_nil, ih (fun k member => grown (above k member)) fun k member =>
              apart (other k member) (between k member)]
      · have free : key c ∉ (layer key upper [] middle).map key := fun member =>
          (mem_keys_layer.mp member).elim inUpper inMiddle
        rw [layer_free free, layer_free inUpper, ih above between]

theorem layer_assoc (upper middle lower : List α) :
    layer key (layer key upper [] middle) [] lower = layer key upper [] (layer key middle [] lower) :=
  layer_assoc_from lower (fun _ _ => Iff.rfl) fun _ _ => Iff.rfl

end Cronet.Layer
