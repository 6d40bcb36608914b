import TableFormula.Grammar.Basic
import TableFormula.Token.Written

namespace TableFormula

theorem wordOfDigits?_eq_some_iff {digits : String} {value : Int64} :
    wordOfDigits? digits = some value ↔
      Nat.ofDigitChars 10 digits.toList 0 < 0x8000000000000000 ∧
        Int64.ofNat (Nat.ofDigitChars 10 digits.toList 0) = value := by
  show (if _ < 0x8000000000000000 then some _ else none) = some value ↔ _
  rw [Option.ite_none_right_eq_some, Option.some.injEq]

theorem wordOfDigits?_isSome_iff {digits : String} :
    (wordOfDigits? digits).isSome = true ↔
      Nat.ofDigitChars 10 digits.toList 0 < 0x8000000000000000 := by
  rw [Option.isSome_iff_exists]
  constructor
  · rintro ⟨value, found⟩
    exact (wordOfDigits?_eq_some_iff.mp found).1
  · intro small
    exact ⟨_, wordOfDigits?_eq_some_iff.mpr ⟨small, rfl⟩⟩

theorem toInt_of_wordOfDigits? {digits : String} {value : Int64}
    (found : wordOfDigits? digits = some value) :
    value.toInt = Nat.ofDigitChars 10 digits.toList 0 := by
  obtain ⟨small, rfl⟩ := wordOfDigits?_eq_some_iff.mp found
  exact Int64.toInt_ofNat_of_lt small

theorem toInt_nonneg_of_wordOfDigits? {digits : String} {value : Int64}
    (found : wordOfDigits? digits = some value) : 0 ≤ value.toInt := by
  rw [toInt_of_wordOfDigits? found]
  exact Int.natCast_nonneg _

theorem toList_repr_toInt {value : Int64} (positive : 0 ≤ value.toInt) :
    value.toInt.repr.toList = Nat.toDigits 10 value.toInt.toNat := by
  obtain ⟨n, same⟩ := Int.eq_ofNat_of_zero_le positive
  rw [same]
  exact Nat.toList_repr

theorem wordOfDigits?_repr {value : Int64} (positive : 0 ≤ value.toInt) :
    wordOfDigits? value.toInt.repr = some value := by
  have bound := value.toInt_lt
  have small : value.toInt.toNat < 0x8000000000000000 := by omega
  rw [wordOfDigits?_eq_some_iff, toList_repr_toInt positive, Nat.ofDigitChars_ten_toDigits]
  refine ⟨small, Int64.toInt_inj.mp ?_⟩
  rw [Int64.toInt_ofNat_of_lt small]
  exact Int.toNat_of_nonneg positive

theorem wellFormed_number {value : Int64} (positive : 0 ≤ value.toInt) :
    (Token.number value.toInt.repr).WellFormed := by
  show _ ≠ [] ∧ List.all _ _ = true
  rw [toList_repr_toInt positive]
  refine ⟨Nat.toDigits_ne_nil, List.all_eq_true.mpr fun c member => ?_⟩
  exact Nat.isDigit_of_mem_toDigits (by decide) (by decide) member

end TableFormula
