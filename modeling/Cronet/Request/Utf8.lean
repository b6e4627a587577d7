import Cronet.Request.Options

namespace Cronet.Request

open Cronet.Native (Bytes)
open Cronet.Url (Str)

theorem utf8_append (s t : Str) : utf8 (s ++ t) = utf8 s ++ utf8 t := List.flatMap_append

theorem utf8EncodeChar_ascii {c : Char} (ascii : c.toNat < 128) : String.utf8EncodeChar c = [UInt8.ofNat c.toNat] := by
  have small : c.val.toNat ≤ 0x7f := Nat.le_of_lt_succ ascii
  simp only [String.utf8EncodeChar, small, ↓reduceIte]
  rfl

theorem le_ofNat {n : Nat} (high : 128 ≤ n % 256) : 128 ≤ (UInt8.ofNat n).toNat := by rwa [UInt8.toNat_ofNat']

theorem utf8EncodeChar_wide {c : Char} (wide : 128 ≤ c.toNat) : ∀ b ∈ String.utf8EncodeChar c, 128 ≤ b.toNat := by
  have large : ¬c.val.toNat ≤ 0x7f := Nat.not_le.mpr wide
  have bound : c.val.toNat < 0x110000 := by
    rcases c.valid with low | ⟨_, high⟩
    · exact Nat.lt_trans low (by decide)
    · exact high
  intro b member
  simp only [String.utf8EncodeChar, large, ↓reduceIte] at member
  split at member
  · simp only [List.mem_cons, List.not_mem_nil, or_false] at member
    rcases member with rfl | rfl <;> exact le_ofNat (by omega)
  · split at member
    · simp only [List.mem_cons, List.not_mem_nil, or_false] at member
      rcases member with rfl | rfl | rfl <;> exact le_ofNat (by omega)
    · simp only [List.mem_cons, List.not_mem_nil, or_false] at member
      rcases member with rfl | rfl | rfl | rfl <;> exact le_ofNat (by omega)

theorem mem_utf8 {s : Str} {c : Char} (ascii : c.toNat < 128) : UInt8.ofNat c.toNat ∈ utf8 s ↔ c ∈ s := by
  have byte : (UInt8.ofNat c.toNat).toNat = c.toNat := by
    rw [UInt8.toNat_ofNat']
    omega
  simp only [utf8, List.mem_flatMap]
  constructor
  · rintro ⟨d, there, member⟩
    by_cases small : d.toNat < 128
    · rw [utf8EncodeChar_ascii small, List.mem_singleton] at member
      have same : d.toNat % 256 = c.toNat % 256 := by
        have := congrArg UInt8.toNat member
        rwa [UInt8.toNat_ofNat', UInt8.toNat_ofNat', eq_comm] at this
      have equal : d = c := Char.ext (UInt32.toNat_inj.mp (by change d.toNat = c.toNat; omega))
      exact equal ▸ there
    · have high := utf8EncodeChar_wide (Nat.le_of_not_lt small) _ member
      omega
  · intro there
    exact ⟨c, there, by rw [utf8EncodeChar_ascii ascii]; exact List.mem_singleton_self _⟩

end Cronet.Request
