import Mathlib

namespace Ascii

theorem toLower_eq_symbol {c sym : Char} (symbol : sym.isAlpha = false) : c.toLower = sym ↔ c = sym := by
  by_cases upper : c.isUpper
  · have letter : c.isAlpha = true := by rw [Char.isAlpha, upper, Bool.true_or]
    constructor
    · rintro rfl
      rw [Char.isAlpha_toLower_eq_isAlpha, letter] at symbol
      cases symbol
    · rintro rfl
      rw [letter] at symbol
      cases symbol
  · rw [Char.toLower_eq_of_not_isUpper upper]

theorem toLower_lt {c : Char} (ascii : c.toNat < 128) : c.toLower.toNat < 128 := by
  by_cases upper : c.isUpper
  · have range : 65 ≤ c.toNat ∧ c.toNat ≤ 90 := by
      simpa [Char.isUpper, UInt32.le_iff_toNat_le] using upper
    have valid : (c.toNat + 32).isValidChar := .inl (by omega)
    rw [Char.toLower_eq_of_isUpper upper, Char.toNat_ofNat, if_pos valid]
    omega
  · rwa [Char.toLower_eq_of_not_isUpper upper]

theorem alphanum_range {c : Char} (letter : c.isAlphanum = true) :
    ((65 ≤ c.toNat ∧ c.toNat ≤ 90) ∨ (97 ≤ c.toNat ∧ c.toNat ≤ 122)) ∨ (48 ≤ c.toNat ∧ c.toNat ≤ 57) := by
  simp only [Char.isAlphanum, Char.isAlpha, Char.isUpper, Char.isLower, Char.isDigit, ge_iff_le,
    UInt32.le_iff_toNat_le, Bool.or_eq_true, Bool.and_eq_true, decide_eq_true_eq] at letter
  exact letter

theorem alphanum_lt {c : Char} (letter : c.isAlphanum = true) : c.toNat < 128 := by
  have range := alphanum_range letter
  omega

theorem forall_lt {P : Char → Prop} (each : ∀ n < 128, P (Char.ofNat n)) {c : Char} (ascii : c.toNat < 128) : P c := by
  rw [← Char.ofNat_toNat c]
  exact each c.toNat ascii

theorem mem_map_toLower {s : List Char} {sym : Char} (symbol : sym.isAlpha = false) :
    sym ∈ s.map Char.toLower ↔ sym ∈ s := by
  simp only [List.mem_map, toLower_eq_symbol symbol, exists_eq_right]

end Ascii
