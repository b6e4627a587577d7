import Mathlib.Algebra.Group.Nat.Defs
import Mathlib.Data.List.Basic

inductive Fault where
  | outOfBounds
  | overflow
  | narrowing
  | released
  | assertion
  deriving DecidableEq

abbrev Checked (α : Type) := Except Fault α

namespace Checked

variable {α β : Type}

theorem ok_bind {ε : Type} (a : α) (f : α → Except ε β) : Except.ok a >>= f = f a := rfl

theorem bind_ok {ε : Type} {x : Except ε α} {f : α → Except ε β} {b : β} (ok : x >>= f = .ok b) :
    ∃ a, x = .ok a ∧ f a = .ok b := by
  cases x with
  | error e => cases ok
  | ok a => exact ⟨a, rfl, ok⟩

theorem bind_error {ε : Type} {x : Except ε α} {f : α → Except ε β} {e : ε} (failed : x >>= f = .error e) :
    x = .error e ∨ ∃ a, x = .ok a ∧ f a = .error e := by
  cases x with
  | error e' =>
    cases failed
    exact .inl rfl
  | ok a => exact .inr ⟨a, rfl, failed⟩

def int32 (n : Nat) : Checked Nat := if n < 2 ^ 31 then .ok n else .error .overflow

theorem int32_of_lt {n : Nat} (fits : n < 2 ^ 31) : int32 n = .ok n := if_pos fits

theorem lt_of_int32 {n m : Nat} (ok : int32 n = .ok m) : n < 2 ^ 31 := by
  unfold int32 at ok
  split at ok
  · assumption
  · cases ok

def uint8 (n : Nat) : Checked UInt8 := if n < 2 ^ 8 then .ok (UInt8.ofNat n) else .error .narrowing

end Checked

abbrev Span (α : Type) := List α

namespace Span

variable {α : Type}

def get (s : Span α) (i : Nat) : Checked α :=
  match s[i]? with
  | some a => .ok a
  | none => .error .outOfBounds

def first (s : Span α) (count : Nat) : Checked (Span α) :=
  if count ≤ s.length then .ok (s.take count) else .error .outOfBounds

def subspan (s : Span α) (offset : Nat) : Checked (Span α) :=
  if offset ≤ s.length then .ok (s.drop offset) else .error .outOfBounds

/-- What `copy_from` leaves of the part that is as long as what is copied and begins at an offset. -/
def put (s : Span α) (offset : Nat) (elements : Span α) : Checked (Span α) :=
  if offset + elements.length ≤ s.length then .ok (s.take offset ++ elements ++ s.drop (offset + elements.length))
  else .error .outOfBounds

theorem get_of_lt {s : Span α} {i : Nat} (within : i < s.length) : s.get i = .ok s[i] := by
  simp only [get, List.getElem?_eq_getElem within]

theorem get_of_le {s : Span α} {i : Nat} (past : s.length ≤ i) : s.get i = .error .outOfBounds := by
  simp only [get, List.getElem?_eq_none past]

theorem first_of_le {s : Span α} {count : Nat} (fits : count ≤ s.length) : s.first count = .ok (s.take count) :=
  if_pos fits

theorem subspan_of_le {s : Span α} {offset : Nat} (fits : offset ≤ s.length) : s.subspan offset = .ok (s.drop offset) :=
  if_pos fits

theorem put_written {front elements out : Span α} {written : Nat} (reached : front.length = written)
    (fits : written + elements.length ≤ out.length) :
    put (front ++ out.drop written) written elements = .ok (front ++ elements ++ out.drop (written + elements.length)) := by
  have within : written + elements.length ≤ (front ++ out.drop written).length := by
    rw [List.length_append, List.length_drop]
    omega
  have taken : (front ++ out.drop written).take written = front := List.take_left' reached
  have behind : (front ++ out.drop written).drop (written + elements.length) = out.drop (written + elements.length) := by
    rw [← List.drop_drop, List.drop_left' reached, List.drop_drop]
  rw [put, if_pos within, taken, behind]

end Span
