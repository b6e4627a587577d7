import Mathlib.Data.Multiset.AddSub
import Mathlib.Data.Multiset.OrderedMonoid

universe u

/-- A network that may lose, copy and reorder what is sent over it. What was sent, and each copy of it, is on its way
    still, has been lost or has been taken. -/
structure Datagrams (α : Type u) where
  flying : Multiset α
  sent : Multiset α
  copied : Multiset α
  lost : Multiset α
  taken : Multiset α
  balanced : sent + copied = flying + lost + taken
  genuine : ∀ a ∈ copied, a ∈ sent

namespace Datagrams

variable {α : Type u} {a b : α}

def empty : Datagrams α := ⟨0, 0, 0, 0, 0, rfl, nofun⟩

theorem mem_sent_of_balanced {d : Datagrams α} (there : a ∈ d.flying + d.lost + d.taken) : a ∈ d.sent := by
  rw [← d.balanced, Multiset.mem_add] at there
  rcases there with sent | copied
  · exact sent
  · exact d.genuine a copied

theorem mem_sent_of_taken {d : Datagrams α} (taken : a ∈ d.taken) : a ∈ d.sent :=
  mem_sent_of_balanced (Multiset.mem_add.mpr (.inr taken))

theorem mem_sent_of_flying {d : Datagrams α} (flying : a ∈ d.flying) : a ∈ d.sent :=
  mem_sent_of_balanced (Multiset.mem_add.mpr (.inl (Multiset.mem_add.mpr (.inl flying))))

/-- Nothing is on its way, and nothing was lost or copied. -/
structure Quiet (d : Datagrams α) : Prop where
  flying : d.flying = 0
  copied : d.copied = 0
  lost : d.lost = 0

/-- A network that has come to rest without a loss or a copy has handed over what was sent, each as often. -/
theorem Quiet.taken_eq {d : Datagrams α} (quiet : d.Quiet) : d.taken = d.sent := by
  have balanced := d.balanced
  rw [quiet.flying, quiet.copied, quiet.lost, add_zero, add_zero, zero_add] at balanced
  exact balanced.symm

def send (d : Datagrams α) (a : α) : Datagrams α where
  flying := a ::ₘ d.flying
  sent := a ::ₘ d.sent
  copied := d.copied
  lost := d.lost
  taken := d.taken
  balanced := by rw [Multiset.cons_add, Multiset.cons_add, Multiset.cons_add, d.balanced]
  genuine b copied := Multiset.mem_cons_of_mem (d.genuine b copied)

@[simp] theorem send_sent {d : Datagrams α} : (d.send a).sent = a ::ₘ d.sent := rfl

variable [DecidableEq α]

def copy (d : Datagrams α) (a : α) (there : a ∈ d.flying) : Datagrams α where
  flying := a ::ₘ d.flying
  sent := d.sent
  copied := a ::ₘ d.copied
  lost := d.lost
  taken := d.taken
  balanced := by rw [Multiset.add_cons, Multiset.cons_add, Multiset.cons_add, d.balanced]
  genuine := by
    intro b copied
    rcases Multiset.mem_cons.mp copied with rfl | before
    · exact mem_sent_of_flying there
    · exact d.genuine b before

def lose (d : Datagrams α) (a : α) (there : a ∈ d.flying) : Datagrams α where
  flying := d.flying.erase a
  sent := d.sent
  copied := d.copied
  lost := a ::ₘ d.lost
  taken := d.taken
  balanced := by
    rw [d.balanced, ← Multiset.cons_erase there, Multiset.add_cons, Multiset.cons_add, Multiset.erase_cons_head]
  genuine := d.genuine

def take (d : Datagrams α) (a : α) (there : a ∈ d.flying) : Datagrams α where
  flying := d.flying.erase a
  sent := d.sent
  copied := d.copied
  lost := d.lost
  taken := a ::ₘ d.taken
  balanced := by
    rw [d.balanced, ← Multiset.cons_erase there, Multiset.add_cons, Multiset.cons_add, Multiset.cons_add,
      Multiset.erase_cons_head]
  genuine := d.genuine

inductive Fate where
  | copy
  | lose

def suffer (d : Datagrams α) (a : α) (there : a ∈ d.flying) : Fate → Datagrams α
  | .copy => d.copy a there
  | .lose => d.lose a there

variable {d : Datagrams α} {there : a ∈ d.flying} {fate : Fate}

@[simp] theorem suffer_sent : (d.suffer a there fate).sent = d.sent := by
  cases fate <;> rfl

@[simp] theorem suffer_taken : (d.suffer a there fate).taken = d.taken := by
  cases fate <;> rfl

@[simp] theorem take_taken : (d.take a there).taken = a ::ₘ d.taken := rfl

end Datagrams
