import Cronet.Url.Split

namespace Cronet.Request

open Cronet.Url (Str Python)

/-- Headers in the order they are sent. What a value carries beside its text is left open. -/
structure Headers (β : Type) where
  pairs : List (Str × β)
  deriving DecidableEq

namespace Headers

variable [Python] {β γ : Type}

def contains (h : Headers β) (name : Str) : Bool := h.pairs.any fun p => Python.lower p.1 = Python.lower name

def getList (h : Headers β) (name : Str) : List β :=
  (h.pairs.filter fun p => Python.lower p.1 = Python.lower name).map Prod.snd

/-- Indexing, or `none` for a `KeyError`. -/
def get? (h : Headers Str) (name : Str) : Option Str :=
  if h.getList name = [] then none else some (", ".toList.intercalate (h.getList name))

/-- The loop of `with_defaults` from where `emitted` has been laid over. -/
def overlay (own : List (Str × β)) (emitted : List Str) : List (Str × β) → List (Str × β)
  | [] => own.filter fun p => Python.lower p.1 ∉ emitted
  | (name, value) :: rest =>
    if Python.lower name ∉ own.map fun p => Python.lower p.1 then (name, value) :: overlay own emitted rest
    else if Python.lower name ∉ emitted then
      (own.filter fun p => Python.lower p.1 = Python.lower name) ++ overlay own (Python.lower name :: emitted) rest
    else overlay own emitted rest

def withDefaults (h defaults : Headers β) : Headers β := ⟨overlay h.pairs [] defaults.pairs⟩

def map (f : β → γ) (h : Headers β) : Headers γ := ⟨h.pairs.map fun p => (p.1, f p.2)⟩

theorem contains_iff {h : Headers β} {name : Str} :
    h.contains name = true ↔ Python.lower name ∈ h.pairs.map fun p => Python.lower p.1 := by
  simp [contains]

theorem mem_overlay {own defaults : List (Str × β)} {emitted : List Str} {p : Str × β} :
    p ∈ overlay own emitted defaults ↔
      (p ∈ own ∧ Python.lower p.1 ∉ emitted) ∨ (p ∈ defaults ∧ Python.lower p.1 ∉ own.map fun q => Python.lower q.1) := by
  induction defaults generalizing emitted with
  | nil => simp [overlay]
  | cons d rest ih =>
    obtain ⟨name, value⟩ := d
    unfold overlay
    split
    · rename_i absent
      rw [List.mem_cons, ih, List.mem_cons]
      constructor
      · rintro (rfl | own | default)
        · exact .inr ⟨.inl rfl, absent⟩
        · exact .inl own
        · exact .inr ⟨.inr default.1, default.2⟩
      · rintro (own | ⟨rfl | default, free⟩)
        · exact .inr (.inl own)
        · exact .inl rfl
        · exact .inr (.inr ⟨default, free⟩)
    · rename_i present
      rw [not_not] at present
      have dropped : (p ∈ (name, value) :: rest ∧ Python.lower p.1 ∉ own.map fun q => Python.lower q.1) ↔
          (p ∈ rest ∧ Python.lower p.1 ∉ own.map fun q => Python.lower q.1) := by
        rw [List.mem_cons]
        constructor
        · rintro ⟨rfl | member, free⟩
          · exact absurd present free
          · exact ⟨member, free⟩
        · exact fun ⟨member, free⟩ => ⟨.inr member, free⟩
      rw [dropped]
      split
      · rw [List.mem_append, ih, List.mem_filter, List.mem_cons, decide_eq_true_eq]
        by_cases here : Python.lower p.1 = Python.lower name
        · rename_i fresh
          simp [here, fresh]
        · simp [here]
      · exact ih

theorem mem_withDefaults {h defaults : Headers β} {p : Str × β} :
    p ∈ (h.withDefaults defaults).pairs ↔
      p ∈ h.pairs ∨ (p ∈ defaults.pairs ∧ h.contains p.1 = false) := by
  rw [withDefaults, mem_overlay, ← Bool.not_eq_true, contains_iff]
  simp

theorem contains_withDefaults {h defaults : Headers β} {name : Str} :
    (h.withDefaults defaults).contains name = (h.contains name || defaults.contains name) := by
  rw [Bool.eq_iff_iff, Bool.or_eq_true, contains_iff, contains_iff, contains_iff]
  simp only [List.mem_map, mem_withDefaults]
  constructor
  · rintro ⟨p, own | ⟨default, _⟩, same⟩
    · exact .inl ⟨p, own, same⟩
    · exact .inr ⟨p, default, same⟩
  · rintro (⟨p, own, same⟩ | ⟨p, default, same⟩)
    · exact ⟨p, .inl own, same⟩
    · cases spoken : h.contains p.1 with
      | false => exact ⟨p, .inr ⟨default, spoken⟩, same⟩
      | true =>
        rw [contains_iff, List.mem_map] at spoken
        obtain ⟨q, own, folded⟩ := spoken
        exact ⟨q, .inl own, folded.trans same⟩

theorem contains_map (f : β → γ) (h : Headers β) (name : Str) : (h.map f).contains name = h.contains name := by
  simp [contains, map, List.any_map, Function.comp_def]

theorem overlay_map (f : β → γ) (own defaults : List (Str × β)) (emitted : List Str) :
    overlay (own.map fun p => (p.1, f p.2)) emitted (defaults.map fun p => (p.1, f p.2)) =
      (overlay own emitted defaults).map fun p => (p.1, f p.2) := by
  induction defaults generalizing emitted with
  | nil => simp [overlay, List.filter_map, Function.comp_def]
  | cons d rest ih =>
    simp only [List.map_cons, overlay, List.map_map, Function.comp_def, List.filter_map, ih]
    split
    · rfl
    · split
      · rw [List.map_append]
      · rfl

theorem withDefaults_map (f : β → γ) (h defaults : Headers β) :
    (h.map f).withDefaults (defaults.map f) = (h.withDefaults defaults).map f := by
  simp only [withDefaults, map, overlay_map]

end Headers

end Cronet.Request
