import Mathlib.Data.List.Basic

namespace Base64

def alphabet : List Char := "ABCDEFGHIJKLMNOPQRSTUVWXYZabcdefghijklmnopqrstuvwxyz0123456789+/".toList

def digit (n : Nat) : Char := alphabet.getD n '='

def value? (c : Char) : Option Nat := alphabet.findIdx? (· = c)

def quantum (a b c d : Char) : Option (List UInt8) :=
  match value? a, value? b, value? c, value? d with
  | some a, some b, some c, some d =>
    some [UInt8.ofNat (a * 4 + b / 16), UInt8.ofNat (b % 16 * 16 + c / 4), UInt8.ofNat (c % 4 * 64 + d)]
  | some a, some b, some c, none =>
    if d = '=' ∧ c % 4 = 0 then some [UInt8.ofNat (a * 4 + b / 16), UInt8.ofNat (b % 16 * 16 + c / 4)] else none
  | some a, some b, none, none =>
    if c = '=' ∧ d = '=' ∧ b % 16 = 0 then some [UInt8.ofNat (a * 4 + b / 16)] else none
  | _, _, _, _ => none

def decode : List Char → Option (List UInt8)
  | [] => some []
  | a :: b :: c :: d :: rest => do
    let bytes ← quantum a b c d
    if bytes.length < 3 ∧ rest ≠ [] then none
    else
      let later ← decode rest
      return bytes ++ later
  | _ => none

theorem value_digit {n : Nat} (small : n < 64) : value? (digit n) = some n := by
  have each : ∀ n < 64, value? (digit n) = some n := by decide
  exact each n small

theorem value_padding : value? '=' = none := by decide

theorem ofNat_eq {n : Nat} {a : UInt8} (same : n = a.toNat) : UInt8.ofNat n = a := by
  rw [same, UInt8.ofNat_toNat]

variable (a b c : UInt8)

theorem quantum_whole :
    quantum (digit (a.toNat / 4)) (digit (a.toNat % 4 * 16 + b.toNat / 16)) (digit (b.toNat % 16 * 4 + c.toNat / 64))
      (digit (c.toNat % 64)) = some [a, b, c] := by
  have small := a.toNat_lt
  have small' := b.toNat_lt
  have small'' := c.toNat_lt
  have first : value? (digit (a.toNat / 4)) = some (a.toNat / 4) := value_digit (by omega)
  have second : value? (digit (a.toNat % 4 * 16 + b.toNat / 16)) = some (a.toNat % 4 * 16 + b.toNat / 16) :=
    value_digit (by omega)
  have third : value? (digit (b.toNat % 16 * 4 + c.toNat / 64)) = some (b.toNat % 16 * 4 + c.toNat / 64) :=
    value_digit (by omega)
  have fourth : value? (digit (c.toNat % 64)) = some (c.toNat % 64) := value_digit (by omega)
  simp only [quantum, first, second, third, fourth]
  rw [ofNat_eq (a := a) (by omega), ofNat_eq (a := b) (by omega), ofNat_eq (a := c) (by omega)]

theorem quantum_pair :
    quantum (digit (a.toNat / 4)) (digit (a.toNat % 4 * 16 + b.toNat / 16)) (digit (b.toNat % 16 * 4)) '=' =
      some [a, b] := by
  have small := a.toNat_lt
  have small' := b.toNat_lt
  have first : value? (digit (a.toNat / 4)) = some (a.toNat / 4) := value_digit (by omega)
  have second : value? (digit (a.toNat % 4 * 16 + b.toNat / 16)) = some (a.toNat % 4 * 16 + b.toNat / 16) :=
    value_digit (by omega)
  have third : value? (digit (b.toNat % 16 * 4)) = some (b.toNat % 16 * 4) := value_digit (by omega)
  simp only [quantum, first, second, third, value_padding, true_and]
  rw [if_pos (by omega), ofNat_eq (a := a) (by omega), ofNat_eq (a := b) (by omega)]

theorem quantum_single : quantum (digit (a.toNat / 4)) (digit (a.toNat % 4 * 16)) '=' '=' = some [a] := by
  have small := a.toNat_lt
  have first : value? (digit (a.toNat / 4)) = some (a.toNat / 4) := value_digit (by omega)
  have second : value? (digit (a.toNat % 4 * 16)) = some (a.toNat % 4 * 16) := value_digit (by omega)
  simp only [quantum, first, second, value_padding, true_and]
  rw [if_pos (by omega), ofNat_eq (a := a) (by omega)]

variable {a b c} {w x y z : Char} {bytes later : List UInt8} {rest : List Char}

theorem decode_whole (whole : quantum w x y z = some [a, b, c]) (decoded : decode rest = some later) :
    decode (w :: x :: y :: z :: rest) = some (a :: b :: c :: later) := by
  simp [decode, whole, decoded]

theorem decode_last (last : quantum w x y z = some bytes) : decode [w, x, y, z] = some bytes := by
  simp [decode, last]

end Base64
