import Cronet.Lib.Checked
import Cronet.Tls.Profile
import Mathlib.Data.List.Perm.Subperm
import Mathlib.Data.List.Range

namespace Cronet.Tls

structure ExtensionTable where
  types : List UInt16
  distinct : types.Nodup
  small : types.length ≤ 2 ^ 8

namespace ExtensionTable

def kNumExtensions (table : ExtensionTable) : Nat := table.types.length

/-- `tls_extension_find`. -/
def find (table : ExtensionTable) (type : UInt16) : Option Nat := table.types.idxOf? type

end ExtensionTable

inductive SslReason where
  | errorAddingExtension
  | duplicateExtension
  deriving DecidableEq

/-- `ssl->config`; an empty order is none. -/
structure SslConfig where
  extensionOrder : List UInt8
  permuteExtensions : Bool
  deriving DecidableEq

/-- `config` is gone once the handshake is over; `errors` is the queue that `OPENSSL_PUT_ERROR` puts on. -/
structure Ssl where
  config : Option SslConfig
  errors : List (SslReason × String)
  deriving DecidableEq

namespace Ssl

def putError (ssl : Ssl) (reason : SslReason) (type : UInt16) : Ssl :=
  { ssl with errors := ssl.errors ++ [(reason, "extension " ++ toString type)] }

end Ssl

structure Heap where
  allocates : Bool
  contents : Nat → UInt8

def Heap.initForOverwrite (heap : Heap) (size : Nat) : Option (List UInt8) :=
  if size = 0 ∨ heap.allocates then some ((List.range size).map heap.contents) else none

structure Filling where
  order : List UInt8
  placed : List Bool
  len : Nat

namespace Filling

def initial (order : List UInt8) (size : Nat) : Filling := ⟨order, List.replicate size false, 0⟩

/-- `order[len++] = (uint8_t)index`. -/
def push (f : Filling) (index : Nat) : Checked Filling := do
  let order ← Span.put f.order f.len [UInt8.ofNat index]
  return { f with order, len := f.len + 1 }

def named (table : ExtensionTable) : Filling → List UInt16 → Checked (Filling ⊕ SslReason × UInt16)
  | f, [] => return .inl f
  | f, type :: types =>
    match table.find type with
    | none => return .inr (.errorAddingExtension, type)
    | some index => do
      if ← Span.get f.placed index then return .inr (.duplicateExtension, type)
      let placed ← Span.put f.placed index [true]
      let f ← push { f with placed } index
      named table f types

def others : Filling → List Nat → Checked Filling
  | f, [] => return f
  | f, i :: rest => do
    if ← Span.get f.placed i then others f rest
    else
      let f ← f.push i
      others f rest

end Filling

/-- `SSL_set1_extension_order`. -/
def set1ExtensionOrder (table : ExtensionTable) (heap : Heap) (ssl : Ssl) (extensionTypes : List UInt16) :
    Checked (Ssl × Nat) :=
  match ssl.config with
  | none => return (ssl, 0)
  | some config =>
    if extensionTypes = [] then return ({ ssl with config := some { config with extensionOrder := [] } }, 1)
    else
      match heap.initForOverwrite table.kNumExtensions with
      | none => return (ssl, 0)
      | some order => do
        match ← Filling.named table (.initial order table.kNumExtensions) extensionTypes with
        | .inr (reason, type) => return (ssl.putError reason type, 0)
        | .inl f =>
          let f ← f.others (List.range table.kNumExtensions)
          if f.len ≠ table.kNumExtensions then throw .assertion
          return ({ ssl with config := some { config with extensionOrder := f.order } }, 1)

/-- `ssl_setup_extension_permutation`, up to the copy; `shuffled` is the random order. An empty one is that of the table. -/
def setupExtensionPermutation (config : SslConfig) (shuffled : List UInt8) : List UInt8 :=
  if config.extensionOrder ≠ [] then config.extensionOrder
  else if config.permuteExtensions then shuffled
  else []

namespace ExtensionTable

variable (table : ExtensionTable)

def index (type : UInt16) : Nat := table.types.idxOf type

/-- The indices of the types that are named, in the order given, and of the rest, in that of the table. -/
def ordered (types : List UInt16) : List Nat :=
  let listed := types.map table.index
  listed ++ (List.range table.kNumExtensions).filter (· ∉ listed)

def Orderable (types : List UInt16) : Prop := (∀ type ∈ types, type ∈ table.types) ∧ types.Nodup

instance (types : List UInt16) : Decidable (table.Orderable types) :=
  @instDecidableAnd _ _ (List.decidableBAll _ types) (List.nodupDecidable types)

end ExtensionTable

/-- What is stored of a list: nothing of an empty one, else the indices of the whole table, each of them once. -/
structure Stores (table : ExtensionTable) (types : List UInt16) (config after : SslConfig) : Prop where
  cleared : types = [] → after = { config with extensionOrder := [] }
  ordered : types ≠ [] → after = { config with extensionOrder := (table.ordered types).map UInt8.ofNat } ∧
    after.extensionOrder.map UInt8.toNat = table.ordered types ∧
    (table.ordered types).Perm (List.range table.kNumExtensions)
  sent : ∀ shuffled, setupExtensionPermutation after shuffled =
    if types = [] then if config.permuteExtensions then shuffled else [] else after.extensionOrder

/-- Whether there is what the order is stored in, and nothing that cannot be ordered. -/
def Accepts (table : ExtensionTable) (heap : Heap) (ssl : Ssl) (types : List UInt16) : Prop :=
  ssl.config ≠ none ∧ (types = [] ∨ heap.initForOverwrite table.kNumExtensions ≠ none ∧ table.Orderable types)

/-- How a call ends: with the order stored, if it is accepted, and with the one before it kept, if it is not. -/
inductive Ends (table : ExtensionTable) (heap : Heap) (ssl : Ssl) (types : List UInt16) : Ssl × Nat → Prop where
  | stored {config after : SslConfig} (present : ssl.config = some config) (accepts : Accepts table heap ssl types)
      (stores : Stores table types config after) : Ends table heap ssl types ({ ssl with config := some after }, 1)
  | refused {after : Ssl} (kept : after.config = ssl.config) (refuses : ¬Accepts table heap ssl types) :
      Ends table heap ssl types (after, 0)

def bits (size : Nat) (listed : List Nat) : List Bool := (List.range size).map fun i => decide (i ∈ listed)

/-- What a filling holds: the indices in front, over what was there, and the bits of those that are listed. -/
structure Filling.Holds (contents : List UInt8) (listed front : List Nat) (f : Filling) : Prop where
  order : f.order = front.map UInt8.ofNat ++ contents.drop front.length
  placed : f.placed = bits contents.length listed
  len : f.len = front.length

section

variable {contents : List UInt8} {listed front : List Nat} {f : Filling} {index : Nat}

theorem initial_holds (contents : List UInt8) : (Filling.initial contents contents.length).Holds contents [] [] := by
  constructor
  · rfl
  · simp [Filling.initial, bits]
  · rfl

theorem push_holds (holds : f.Holds contents listed front) (room : front.length < contents.length) :
    ∃ g, f.push index = .ok g ∧ g.Holds contents listed (front ++ [index]) := by
  have put := @Span.put_written _ (front.map UInt8.ofNat) [UInt8.ofNat index] contents front.length (List.length_map _) room
  rw [← holds.order, ← holds.len] at put
  refine ⟨_, by rw [Filling.push, put]; rfl, ?_⟩
  constructor
  · simp [holds.len]
  · exact holds.placed
  · simp [holds.len]

theorem bits_get {size : Nat} (inside : index < size) :
    Span.get (bits size listed) index = .ok (decide (index ∈ listed)) := by
  rw [Span.get_of_lt (by simpa [bits] using inside)]
  simp [bits]

theorem bits_put {size : Nat} (inside : index < size) :
    Span.put (bits size listed) index [true] = .ok (bits size (listed ++ [index])) := by
  have fits : index + [true].length ≤ (bits size listed).length := by
    rw [bits, List.length_map, List.length_range]
    exact inside
  rw [Span.put, if_pos fits]
  congr 1
  apply List.ext_getElem
  · simp [bits]
    omega
  · intro i _ _
    simp only [bits, List.getElem_append, List.getElem_take, List.getElem_drop, List.getElem_map, List.getElem_range,
      List.length_append, List.length_take, List.length_map, List.length_range, List.length_singleton,
      List.mem_append, List.mem_singleton]
    grind

end

section

variable {n : Nat} {listed : List Nat}

theorem completed_perm (distinct : listed.Nodup) (inside : ∀ i ∈ listed, i < n) :
    (listed ++ (List.range n).filter (· ∉ listed)).Perm (List.range n) := by
  apply (List.perm_ext_iff_of_nodup ?_ List.nodup_range).mpr
  · intro i
    simp only [List.mem_append, List.mem_filter, List.mem_range, decide_eq_true_eq]
    constructor
    · rintro (named | ⟨small, _⟩)
      · exact inside i named
      · exact small
    · intro small
      by_cases named : i ∈ listed
      · exact .inl named
      · exact .inr ⟨small, named⟩
  · apply List.Nodup.append distinct (List.nodup_range.filter _)
    intro i named other
    exact of_decide_eq_true (List.mem_filter.mp other).2 named

theorem room_left {index : Nat} (distinct : listed.Nodup) (inside : ∀ i ∈ listed, i < n) (fresh : index ∉ listed)
    (small : index < n) : listed.length < n := by
  have whole := (completed_perm distinct inside).length_eq
  have other : index ∈ (List.range n).filter (· ∉ listed) :=
    List.mem_filter.mpr ⟨List.mem_range.mpr small, decide_eq_true fresh⟩
  have positive := List.length_pos_of_mem other
  rw [List.length_append, List.length_range] at whole
  omega

end

section

variable {table : ExtensionTable} {contents : List UInt8} {listed : List Nat} {f : Filling} {types : List UInt16}

theorem find_some {type : UInt16} (known : type ∈ table.types) :
    table.find type = some (table.index type) ∧ table.index type < table.kNumExtensions := by
  obtain ⟨index, found⟩ := Option.isSome_iff_exists.mp (List.isSome_idxOf?.mpr known)
  obtain ⟨small, here, _⟩ := List.idxOf?_eq_some_iff.mp found
  have same : table.index type = index := by
    rw [ExtensionTable.index, ← here]
    exact table.distinct.idxOf_getElem index small
  rw [same]
  exact ⟨found, small⟩

/-- The types that are still to come are of the table, none of them twice and none placed already. -/
def Fresh (table : ExtensionTable) (listed : List Nat) (types : List UInt16) : Prop :=
  (∀ type ∈ types, type ∈ table.types ∧ table.index type ∉ listed) ∧ types.Nodup

instance : Decidable (Fresh table listed types) := inferInstanceAs (Decidable (_ ∧ _))

theorem fresh_cons {type : UInt16} (known : type ∈ table.types) (unplaced : table.index type ∉ listed) :
    Fresh table listed (type :: types) ↔ Fresh table (listed ++ [table.index type]) types := by
  have apart {other : UInt16} : table.index other = table.index type ↔ type = other := by
    rw [eq_comm]
    exact List.idxOf_inj known
  simp only [Fresh, List.forall_mem_cons, List.nodup_cons, List.mem_append, List.mem_singleton, not_or, apart]
  grind

theorem named_spec (size : contents.length = table.kNumExtensions) (holds : f.Holds contents listed listed)
    (distinct : listed.Nodup) (inside : ∀ i ∈ listed, i < contents.length) :
    (Fresh table listed types → ∃ g, Filling.named table f types = .ok (.inl g) ∧
      g.Holds contents (listed ++ types.map table.index) (listed ++ types.map table.index)) ∧
    (¬Fresh table listed types → ∃ failure, Filling.named table f types = .ok (.inr failure)) := by
  induction types generalizing f listed with
  | nil =>
    rw [List.map_nil, List.append_nil]
    exact ⟨fun _ => ⟨f, rfl, holds⟩, fun stale => absurd ⟨by simp, List.nodup_nil⟩ stale⟩
  | cons type types ih =>
    by_cases known : type ∈ table.types
    · obtain ⟨found, small⟩ := find_some known
      rw [← size] at small
      simp only [Filling.named, found, holds.placed, bits_get small]
      by_cases placed : table.index type ∈ listed
      · have stale : ¬Fresh table listed (type :: types) := fun fresh => (fresh.1 type List.mem_cons_self).2 placed
        rw [decide_eq_true placed]
        exact ⟨fun fresh => absurd fresh stale, fun _ => ⟨_, rfl⟩⟩
      · rw [decide_eq_false placed, fresh_cons known placed]
        have room := room_left distinct inside placed small
        have marked : Filling.Holds contents (listed ++ [table.index type]) listed
            { f with placed := bits contents.length (listed ++ [table.index type]) } :=
          ⟨holds.order, rfl, holds.len⟩
        obtain ⟨g, pushed, filled⟩ := @push_holds _ _ _ _ (table.index type) marked room
        have next := ih filled (List.nodup_append.mpr ⟨distinct, List.nodup_singleton _, by grind⟩) (by grind)
        rw [List.append_assoc] at next
        show (_ → ∃ g, (Span.put _ _ _ >>= _) = _ ∧ _) ∧ (_ → ∃ failure, (Span.put _ _ _ >>= _) = _)
        rw [bits_put small, Checked.ok_bind, pushed]
        exact next
    · have missing : table.find type = none := List.idxOf?_eq_none_iff.mpr known
      have stale : ¬Fresh table listed (type :: types) := fun fresh => known (fresh.1 type List.mem_cons_self).1
      simp only [Filling.named, missing]
      exact ⟨fun fresh => absurd fresh stale, fun _ => ⟨_, rfl⟩⟩

theorem others_spec {done rest : List Nat} (distinct : listed.Nodup) (inside : ∀ i ∈ listed, i < contents.length)
    (range : done ++ rest = List.range contents.length)
    (holds : f.Holds contents listed (listed ++ done.filter (· ∉ listed))) :
    ∃ g, f.others rest = .ok g ∧
      g.Holds contents listed (listed ++ (List.range contents.length).filter (· ∉ listed)) := by
  induction rest generalizing f done with
  | nil =>
    rw [List.append_nil] at range
    rw [← range]
    exact ⟨f, rfl, holds⟩
  | cons i rest ih =>
    have small : i < contents.length := by
      apply List.mem_range.mp
      rw [← range]
      simp
    have onward : (done ++ [i]) ++ rest = List.range contents.length := by
      rw [List.append_assoc]
      exact range
    simp only [Filling.others, holds.placed, bits_get small]
    by_cases named : i ∈ listed
    · rw [decide_eq_true named]
      apply ih onward
      rw [List.filter_append]
      simpa [named] using holds
    · rw [decide_eq_false named]
      have room : (listed ++ done.filter (· ∉ listed)).length < contents.length := by
        have kept : (i :: rest).filter (· ∉ listed) = i :: rest.filter (· ∉ listed) := by simp [named]
        have whole := (completed_perm distinct inside).length_eq
        rw [List.length_range, ← range, List.filter_append, kept] at whole
        simp only [List.length_append, List.length_cons] at whole ⊢
        omega
      obtain ⟨g, pushed, filled⟩ := @push_holds _ _ _ _ i holds room
      show ∃ g, (f.push i >>= _) = _ ∧ _
      rw [pushed, Checked.ok_bind]
      apply ih onward
      rw [List.filter_append]
      simpa [named] using filled

end

section

variable {table : ExtensionTable} {types : List UInt16}

theorem fresh_nil : Fresh table [] types ↔ table.Orderable types := by
  simp [Fresh, ExtensionTable.Orderable]

theorem orderable_indices (orderable : table.Orderable types) :
    (types.map table.index).Nodup ∧ ∀ i ∈ types.map table.index, i < table.kNumExtensions := by
  obtain ⟨known, distinct⟩ := orderable
  constructor
  · apply List.Nodup.map_on _ distinct
    intro first here second there same
    exact (List.idxOf_inj (known first here)).mp same
  · intro i member
    obtain ⟨type, here, rfl⟩ := List.mem_map.mp member
    exact (find_some (known type here)).2

theorem ordered_perm (orderable : table.Orderable types) :
    (table.ordered types).Perm (List.range table.kNumExtensions) := by
  obtain ⟨distinct, inside⟩ := orderable_indices orderable
  exact completed_perm distinct inside

theorem ordered_toNat (orderable : table.Orderable types) :
    ((table.ordered types).map UInt8.ofNat).map UInt8.toNat = table.ordered types := by
  rw [List.map_map]
  conv_rhs => rw [← List.map_id (table.ordered types)]
  apply List.map_congr_left
  intro i member
  have small := List.mem_range.mp ((ordered_perm orderable).mem_iff.mp member)
  have fits := Nat.lt_of_lt_of_le small table.small
  show (UInt8.ofNat i).toNat = i
  rw [UInt8.toNat_ofNat']
  exact Nat.mod_eq_of_lt fits

theorem idxOf?_toNat (known : List UInt16) (type : UInt16) :
    (known.map UInt16.toNat).idxOf? type.toNat = known.idxOf? type := by
  induction known with
  | nil => rfl
  | cons first rest ih => simp [List.idxOf?_cons, ih, UInt16.toNat_inj]

theorem initForOverwrite_length {heap : Heap} {size : Nat} {contents : List UInt8}
    (allocated : heap.initForOverwrite size = some contents) : contents.length = size := by
  unfold Heap.initForOverwrite at allocated
  split at allocated
  · cases allocated
    simp
  · cases allocated

theorem fill_spec {contents : List UInt8} (size : contents.length = table.kNumExtensions)
    (orderable : table.Orderable types) :
    ∃ f g, Filling.named table (.initial contents table.kNumExtensions) types = .ok (.inl f) ∧
      f.others (List.range table.kNumExtensions) = .ok g ∧ g.order = (table.ordered types).map UInt8.ofNat ∧
      g.len = table.kNumExtensions := by
  have initial := initial_holds contents
  rw [size] at initial
  obtain ⟨f, named, placed⟩ := (named_spec size initial List.nodup_nil (by simp)).1 (fresh_nil.mpr orderable)
  obtain ⟨distinct, inside⟩ := orderable_indices orderable
  rw [← size] at inside
  obtain ⟨g, filled, whole⟩ := @others_spec contents _ f [] _ distinct inside rfl (by simpa using placed)
  rw [size] at filled whole
  have count : (table.ordered types).length = contents.length := by
    rw [(ordered_perm orderable).length_eq, List.length_range, size]
  refine ⟨f, g, named, filled, ?_, whole.len.trans (count.trans size)⟩
  rw [whole.order]
  show (table.ordered types).map UInt8.ofNat ++ contents.drop (table.ordered types).length = _
  rw [List.drop_eq_nil_of_le (Nat.le_of_eq count.symm), List.append_nil]

theorem ordered_stores {config : SslConfig} (named : types ≠ []) (orderable : table.Orderable types) :
    Stores table types config { config with extensionOrder := (table.ordered types).map UInt8.ofNat } := by
  constructor
  · exact fun empty => absurd empty named
  · intro _
    exact ⟨rfl, ordered_toNat orderable, ordered_perm orderable⟩
  · intro shuffled
    have nonempty : (table.ordered types).map UInt8.ofNat ≠ [] := by
      intro none
      have length := congrArg List.length none
      rw [List.length_map, ExtensionTable.ordered, List.length_append, List.length_map, List.length_nil] at length
      apply named
      apply List.length_eq_zero_iff.mp
      omega
    rw [setupExtensionPermutation, if_pos nonempty, if_neg named]

theorem place_spec {stack : Stack} {listed : List Nat} (same : stack.extensions = table.types.map UInt16.toNat) :
    stack.place (types.map UInt16.toNat) listed =
      if Fresh table listed types then some (listed ++ types.map table.index) else none := by
  induction types generalizing listed with
  | nil => simp [Stack.place, Fresh]
  | cons type types ih =>
    have found : stack.extensions.idxOf? type.toNat = table.find type := by
      rw [same, ExtensionTable.find]
      exact idxOf?_toNat table.types type
    rw [List.map_cons, Stack.place, found]
    by_cases known : type ∈ table.types
    · rw [(find_some known).1]
      by_cases placed : table.index type ∈ listed
      · have stale : ¬Fresh table listed (type :: types) := fun fresh => (fresh.1 type List.mem_cons_self).2 placed
        simp only [if_pos placed, if_neg stale]
      · simp only [if_neg placed, fresh_cons known placed, ih, List.map_cons, List.append_assoc, List.singleton_append]
    · have missing : table.find type = none := List.idxOf?_eq_none_iff.mpr known
      have stale : ¬Fresh table listed (type :: types) := fun fresh => known (fresh.1 type List.mem_cons_self).1
      rw [missing, if_neg stale]

/-- The array that is filled refines the list the handshake is given an order by. -/
theorem setExtensionOrder_refines {stack : Stack} (same : stack.extensions = table.types.map UInt16.toNat) :
    stack.setExtensionOrder (types.map UInt16.toNat) =
      if types = [] then some [] else if table.Orderable types then some (table.ordered types) else none := by
  have size : stack.extensions.length = table.kNumExtensions := by
    rw [same, List.length_map]
    rfl
  rw [Stack.setExtensionOrder, place_spec same, size]
  simp only [List.map_eq_nil_iff, List.nil_append, fresh_nil]
  by_cases empty : types = []
  · rw [if_pos empty, if_pos empty]
  · rw [if_neg empty, if_neg empty]
    by_cases orderable : table.Orderable types
    · rw [if_pos orderable, if_pos orderable]
      rfl
    · rw [if_neg orderable, if_neg orderable]
      rfl

end

/-- A list is ordered whole or refused, and nothing is written behind the end of the array. -/
theorem extension_order_set (table : ExtensionTable) (heap : Heap) (ssl : Ssl) (types : List UInt16) :
    ∃ reply, set1ExtensionOrder table heap ssl types = .ok reply ∧ Ends table heap ssl types reply := by
  unfold set1ExtensionOrder
  cases present : ssl.config with
  | none => exact ⟨_, rfl, .refused rfl fun accepts => accepts.1 present⟩
  | some config =>
    have configured : ssl.config ≠ none := by simp [present]
    by_cases empty : types = []
    · simp only [if_pos empty]
      refine ⟨_, rfl, .stored present ⟨configured, .inl empty⟩ ?_⟩
      exact ⟨fun _ => rfl, fun named => absurd empty named, fun shuffled => by simp [setupExtensionPermutation, empty]⟩
    simp only [if_neg empty]
    cases allocated : heap.initForOverwrite table.kNumExtensions with
    | none => exact ⟨_, rfl, .refused rfl fun accepts => (accepts.2.resolve_left empty).1 allocated⟩
    | some contents =>
      have size := initForOverwrite_length allocated
      by_cases orderable : table.Orderable types
      · obtain ⟨f, g, named, filled, order, full⟩ := fill_spec size orderable
        simp only [named]
        show ∃ reply, (f.others (List.range table.kNumExtensions) >>= _) = _ ∧ _
        rw [filled, Checked.ok_bind, if_neg (not_not.mpr full), order]
        exact ⟨_, rfl, .stored present ⟨configured, .inr ⟨by simp [allocated], orderable⟩⟩ (ordered_stores empty orderable)⟩
      · have initial := initial_holds contents
        rw [size] at initial
        obtain ⟨failure, stopped⟩ :=
          (named_spec size initial List.nodup_nil (by simp)).2 fun fresh => orderable (fresh_nil.mp fresh)
        simp only [stopped]
        exact ⟨_, rfl, .refused rfl fun accepts => orderable (accepts.2.resolve_left empty).2⟩

def alpnTable : ExtensionTable := ⟨[16], by decide, by decide⟩

/-- A type of the table, named once, for a connection whose handshake is over and for one without memory for it. -/
theorem finished_handshake_refuses :
    set1ExtensionOrder alpnTable ⟨true, fun _ => 0⟩ ⟨none, []⟩ [16] = .ok (⟨none, []⟩, 0) ∧
      set1ExtensionOrder alpnTable ⟨false, fun _ => 0⟩ ⟨some ⟨[], false⟩, []⟩ [16] = .ok (⟨some ⟨[], false⟩, []⟩, 0) ∧
      alpnTable.Orderable [16] := by
  refine ⟨rfl, rfl, fun type member => member, ?_⟩
  exact List.nodup_singleton 16

end Cronet.Tls
