import Cronet.Lib.Layer
import Cronet.Request.Headers

namespace Cronet.Request.Headers

open Cronet.Url (Str Python)

variable [Python] {β : Type}

def empty : Headers β := ⟨[]⟩

/-- The loop of `__iter__` from where the names in `seen` have been yielded. -/
def distinct (seen : List Str) : List (Str × β) → List Str
  | [] => []
  | (name, _) :: rest =>
    if Python.lower name ∉ seen then name :: distinct (Python.lower name :: seen) rest else distinct seen rest

def iter (h : Headers β) : List Str := distinct [] h.pairs

def foldedNames (h : Headers β) : List Str := h.iter.map Python.lower

def pairsFor (h : Headers β) (name : Str) : List (Str × β) :=
  h.pairs.filter fun p => Python.lower p.1 = Python.lower name

/-- The pairs under names that `above` says nothing about. -/
def leftBy (h above : Headers β) : List (Str × β) := h.pairs.filter fun p => above.contains p.1 = false

/-- What it is for `r` to be `s` laid over the defaults `d`. -/
structure LaidOver (s d r : Headers β) : Prop where
  pairs : ∀ name, r.pairsFor name = if s.contains name then s.pairsFor name else d.pairsFor name
  names : r.foldedNames = d.foldedNames ++ s.foldedNames.filter fun name => name ∉ d.foldedNames
  order : r.leftBy s = d.leftBy s

def folded (p : Str × β) : Str := Python.lower p.1

theorem overlay_eq_layer (own defaults : List (Str × β)) (emitted : List Str) :
    overlay own emitted defaults = Layer.layer folded own emitted defaults := by
  induction defaults generalizing emitted with
  | nil => exact List.filter_congr fun _ _ => decide_eq_decide.mpr Iff.rfl
  | cons d rest ih =>
    unfold overlay
    split
    · rw [Layer.layer_free ‹_›, ih]
    · rename_i above
      have taken : folded d ∈ own.map folded := not_not.mp above
      split
      · rw [Layer.layer_first taken ‹_›, ih]
        congr 1
      · rename_i again
        rw [Layer.layer_again taken (not_not.mp again), ih]

theorem withDefaults_pairs (s d : Headers β) :
    (s.withDefaults d).pairs = Layer.layer folded s.pairs [] d.pairs := overlay_eq_layer ..

theorem pairsFor_eq (h : Headers β) (name : Str) :
    h.pairsFor name = Layer.sharing folded (Python.lower name) h.pairs := rfl

theorem contains_iff_key {h : Headers β} {name : Str} : h.contains name = true ↔ Python.lower name ∈ h.pairs.map folded :=
  contains_iff

theorem distinct_folded (seen : List Str) (xs : List (Str × β)) :
    (distinct seen xs).map Python.lower = Layer.firsts folded (Layer.outside folded seen xs) := by
  induction xs generalizing seen with
  | nil => rfl
  | cons p rest ih =>
    unfold distinct
    split
    · rename_i absent
      have fresh : folded p ∉ seen := absent
      rw [Layer.outside_cons_free fresh, Layer.firsts_cons, Layer.outside_outside, List.singleton_append, List.map_cons,
        ih]
      rfl
    · rename_i present
      have again : folded p ∈ seen := not_not.mp present
      rw [Layer.outside_cons_taken again, ih]

theorem foldedNames_eq (h : Headers β) : h.foldedNames = Layer.firsts folded h.pairs := by
  rw [foldedNames, iter, distinct_folded, Layer.outside_nil]

theorem leftBy_eq (h above : Headers β) : h.leftBy above = Layer.outside folded (above.pairs.map folded) h.pairs := by
  apply List.filter_congr
  intro p _
  rw [decide_eq_decide, ← Bool.not_eq_true, contains_iff_key]
  rfl

theorem withDefaults_pairsFor (s d : Headers β) (name : Str) :
    (s.withDefaults d).pairsFor name = if s.contains name then s.pairsFor name else d.pairsFor name := by
  rw [pairsFor_eq, withDefaults_pairs]
  split
  · rename_i spoken
    rw [Layer.sharing_layer_own (contains_iff_key.mp spoken), if_neg List.not_mem_nil]
    rfl
  · rename_i silent
    rw [Layer.sharing_layer_lower (mt contains_iff_key.mpr silent)]
    rfl

theorem withDefaults_foldedNames (s d : Headers β) :
    (s.withDefaults d).foldedNames = d.foldedNames ++ s.foldedNames.filter fun name => name ∉ d.foldedNames := by
  simp only [foldedNames_eq, withDefaults_pairs, Layer.firsts_layer]
  congr 1
  exact List.filter_congr fun _ _ => decide_eq_decide.mpr Iff.rfl

theorem withDefaults_leftBy (s d : Headers β) : (s.withDefaults d).leftBy s = d.leftBy s := by
  rw [leftBy_eq, leftBy_eq, withDefaults_pairs, Layer.outside_layer_own]

theorem withDefaults_assoc (a b c : Headers β) :
    (a.withDefaults b).withDefaults c = a.withDefaults (b.withDefaults c) := by
  simp only [withDefaults, overlay_eq_layer, Layer.layer_assoc]

theorem withDefaults_empty (h : Headers β) : h.withDefaults empty = h := by
  rw [withDefaults, overlay_eq_layer, empty, Layer.layer_empty]

theorem empty_withDefaults (h : Headers β) : empty.withDefaults h = h := by
  rw [withDefaults, overlay_eq_layer, empty, Layer.empty_layer]

/-- Overriding keeps each name's own pairs and the defaults' order, and is a monoid. -/
theorem withDefaults_laws :
    (∀ s d : Headers β, LaidOver s d (s.withDefaults d)) ∧
      (∀ a b c : Headers β, (a.withDefaults b).withDefaults c = a.withDefaults (b.withDefaults c)) ∧
      ∀ h : Headers β, h.withDefaults empty = h ∧ empty.withDefaults h = h :=
  ⟨fun s d => ⟨withDefaults_pairsFor s d, withDefaults_foldedNames s d, withDefaults_leftBy s d⟩, withDefaults_assoc,
    fun h => ⟨withDefaults_empty h, empty_withDefaults h⟩⟩

end Cronet.Request.Headers
