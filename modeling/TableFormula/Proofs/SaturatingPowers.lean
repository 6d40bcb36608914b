import Mathlib
import TableFormula.Evaluation.Apply

/-!
Rounding does not bring a number below a power of two, and a large exponent may be replaced by a
smaller one of the same parity, so that the size of the exponent is no matter.
-/

namespace TableFormula

namespace Arithmetic

/-! ### Rounding keeps powers of two -/

theorem le_roundQuotient {k n unit : Nat} (pos : 0 < unit) (low : k * unit ≤ n) :
    k ≤ roundQuotient n unit := by
  have whole : k ≤ n / unit := (Nat.le_div_iff_mul_le pos).mpr low
  unfold roundQuotient
  dsimp only
  split
  · exact whole
  · exact Nat.le_succ_of_le whole

theorem two_pow_log2_le_roundBits {n bits : Nat} (nonzero : n ≠ 0) (some : 0 < bits) :
    2 ^ n.log2 ≤ roundBits n bits := by
  have unit : lastUnit n bits = 2 ^ (n.log2 + 1 - bits) := Nat.one_shiftLeft _
  have split : 2 ^ n.log2 = 2 ^ (n.log2 - (n.log2 + 1 - bits)) * 2 ^ (n.log2 + 1 - bits) := by
    rw [← Nat.pow_add]
    congr 1
    omega
  rw [roundBits, unit, split]
  refine Nat.mul_le_mul_right _ (le_roundQuotient (Nat.two_pow_pos _) ?_)
  rw [← split]
  exact Nat.log2_self_le nonzero

theorem two_pow_le_roundBits {m n bits : Nat} (low : 2 ^ m ≤ n) (some : 0 < bits) :
    2 ^ m ≤ roundBits n bits := by
  have nonzero : n ≠ 0 := by
    have := Nat.two_pow_pos m
    omega
  have : m ≤ n.log2 := (Nat.le_log2 nonzero).mpr low
  exact (Nat.pow_le_pow_right (by decide) this).trans (two_pow_log2_le_roundBits nonzero some)

theorem nearestDouble_of_natAbs_le {n : Int} (small : n.natAbs ≤ 2 ^ 53) : nearestDouble n = n := by
  rcases Nat.lt_or_eq_of_le small with less | same
  · refine nearestDouble_of_log2_lt ?_
    by_cases zero : n.natAbs = 0
    · rw [zero]
      decide
    · exact (Nat.log2_lt zero).mpr less
  · have even : roundBits (2 ^ 53) 53 = 2 ^ 53 := by decide
    rw [nearestDouble, same, even, ← same]
    exact Int.sign_mul_natAbs n

theorem nearestDouble_neg (n : Int) : nearestDouble (-n) = -nearestDouble n := by
  rw [nearestDouble, nearestDouble, Int.sign_neg, Int.natAbs_neg, Int.neg_mul]

theorem two_pow_le_nearestDouble {m : Nat} {n : Int} (low : 2 ^ m ≤ n) :
    2 ^ m ≤ nearestDouble n := by
  have pos : 0 < n := lt_of_lt_of_le (by positivity) low
  have kept : 2 ^ m ≤ roundBits n.natAbs 53 := by
    refine two_pow_le_roundBits ?_ (by decide)
    zify
    rwa [abs_of_pos pos]
  rw [nearestDouble, Int.sign_eq_one_of_pos pos, one_mul]
  exact_mod_cast kept

/-! ### Numbers that no word holds -/

theorem saturate_nearestDouble_of_le {n : Int} (high : 2 ^ 63 ≤ n) :
    saturate (nearestDouble n) = Int64.maxValue := by
  have greatest : Int64.maxValue.toInt = 2 ^ 63 - 1 := by decide
  have := two_pow_le_nearestDouble high
  rw [saturate, if_pos (by omega)]

theorem saturate_nearestDouble_of_le_neg {n : Int} (low : n ≤ -2 ^ 63) :
    saturate (nearestDouble n) = Int64.minValue := by
  have greatest : Int64.maxValue.toInt = 2 ^ 63 - 1 := by decide
  have least : Int64.minValue.toInt = -2 ^ 63 := by decide
  have far : 2 ^ 63 ≤ nearestDouble (-n) := two_pow_le_nearestDouble (by omega)
  rw [nearestDouble_neg] at far
  rw [saturate, if_neg (by omega)]
  split
  · rfl
  · have bound : nearestDouble n = Int64.minValue.toInt := by omega
    rw [bound]
    rfl

section

variable {base : Int} {exponent : Nat}

theorem capExponent_of_le (large : 64 ≤ exponent) : capExponent exponent = 64 + exponent % 2 :=
  if_neg (by omega)

theorem even_capExponent (exponent : Nat) : Even (capExponent exponent) ↔ Even exponent := by
  rw [Nat.even_iff, Nat.even_iff, capExponent]
  split <;> omega

theorem two_pow_le_pow_natAbs (far : 2 ≤ base.natAbs) (large : 63 ≤ exponent) :
    2 ^ 63 ≤ base.natAbs ^ exponent :=
  calc 2 ^ 63 ≤ 2 ^ exponent := Nat.pow_le_pow_right (by decide) large
    _ ≤ base.natAbs ^ exponent := Nat.pow_le_pow_left far exponent

/-- Powers beyond the words have the bound on the side of the sign, which depends on the parity of
the exponent alone. -/
theorem saturate_pow_of_le (far : 2 ≤ base.natAbs) (large : 63 ≤ exponent) :
    saturate (nearestDouble (base ^ exponent)) =
      if 0 ≤ base ∨ Even exponent then Int64.maxValue else Int64.minValue := by
  have high := two_pow_le_pow_natAbs far large
  split
  · rename_i positive
    apply saturate_nearestDouble_of_le
    have nonneg : 0 ≤ base ^ exponent := by
      rcases positive with nonneg | even
      · exact pow_nonneg nonneg exponent
      · exact even.pow_nonneg base
    rw [← Int.natAbs_of_nonneg nonneg, Int.natAbs_pow]
    exact_mod_cast high
  · rename_i negative
    rw [not_or, not_le, Nat.not_even_iff_odd] at negative
    apply saturate_nearestDouble_of_le_neg
    have flipped : base ^ exponent = -((base.natAbs ^ exponent : Nat) : Int) := by
      rw [Nat.cast_pow, Int.ofNat_natAbs_of_nonpos negative.1.le, negative.2.neg_pow, neg_neg]
    rw [flipped]
    exact_mod_cast Int.neg_le_neg (Int.ofNat_le.mpr high)

/-- A capped exponent leads to the same word. -/
theorem saturate_pow_capExponent (base : Int) (exponent : Nat) :
    saturate (nearestDouble (base ^ capExponent exponent)) =
      saturate (nearestDouble (base ^ exponent)) := by
  by_cases small : exponent < 64
  · rw [capExponent, if_pos small]
  · have capped := capExponent_of_le (Nat.le_of_not_lt small)
    by_cases far : 2 ≤ base.natAbs
    · rw [saturate_pow_of_le far (by omega), saturate_pow_of_le far (by omega)]
      simp only [even_capExponent]
    · -- The powers of the other bases depend on the parity of the exponent alone.
      obtain rfl | rfl | rfl : base = 0 ∨ base = 1 ∨ base = -1 := by omega
      · rw [zero_pow (by omega), zero_pow (by omega)]
      · rw [one_pow, one_pow]
      · rcases Nat.even_or_odd exponent with even | odd
        · rw [((even_capExponent _).mpr even).neg_one_pow, even.neg_one_pow]
        · have : Odd (capExponent exponent) := by
            rwa [← Nat.not_even_iff_odd, even_capExponent, Nat.not_even_iff_odd]
          rw [this.neg_one_pow, odd.neg_one_pow]

end

/-! ### Powers of words -/

section

variable {left right : Int64} (smallLeft : left.toInt.natAbs ≤ 2 ^ 53)
  (smallRight : right.toInt.natAbs ≤ 2 ^ 53)
include smallLeft smallRight

/-- The power of the whole numbers, rounded once and brought into the range of a word. -/
theorem power_of_nonneg (nonneg : 0 ≤ right.toInt) :
    power left right = saturate (nearestDouble (left.toInt ^ right.toInt.toNat)) := by
  rw [power, nearestDouble_of_natAbs_le smallLeft, nearestDouble_of_natAbs_le smallRight, powerWhole,
    if_neg (Int.not_lt.mpr nonneg)]
  exact saturate_pow_capExponent _ _

theorem power_of_neg (negative : right.toInt < 0) (far : 2 ≤ left.toInt.natAbs) :
    power left right = 0 := by
  have nonzero : left.toInt ≠ 0 := by omega
  have some : capExponent right.toInt.natAbs ≠ 0 := by
    rw [capExponent]
    split <;> omega
  have large : 1 < (left.toInt ^ capExponent right.toInt.natAbs).natAbs := by
    rw [Int.natAbs_pow]
    exact Nat.one_lt_pow some far
  have cut : Int.tdiv 1 (left.toInt ^ capExponent right.toInt.natAbs) = 0 := by
    rw [← Int.natAbs_eq_zero, Int.natAbs_tdiv]
    exact Nat.div_eq_of_lt large
  rw [power, nearestDouble_of_natAbs_le smallLeft, nearestDouble_of_natAbs_le smallRight, powerWhole,
    if_pos negative, if_neg nonzero]
  exact (congrArg saturate cut).trans (by decide)

end

end Arithmetic

/-- The power of two words that binary64 holds is a word for every exponent, and draws nothing. An
exponent that is not negative gives the exact power if it is small enough for binary64, and the bound
on its side if no word can hold it; one that is negative gives zero, unless the base is a unit. -/
theorem power_exact_or_bound (left right : Int64) (source : RandomWords)
    (smallLeft : left.toInt.natAbs ≤ 2 ^ 53) (smallRight : right.toInt.natAbs ≤ 2 ^ 53) :
    ∃ value : Int64, (BinaryOp.between .power).apply left right source = (.ok value, source) ∧
      (0 ≤ right.toInt →
        ((left.toInt ^ right.toInt.toNat).natAbs ≤ 2 ^ 53 →
          value.toInt = left.toInt ^ right.toInt.toNat) ∧
        (2 ^ 63 ≤ left.toInt ^ right.toInt.toNat → value = Int64.maxValue) ∧
        (left.toInt ^ right.toInt.toNat ≤ -2 ^ 63 → value = Int64.minValue)) ∧
      (right = 0 → value = 1) ∧
      (right.toInt < 0 → 2 ≤ left.toInt.natAbs → value = 0) := by
  refine ⟨Arithmetic.power left right, rfl, ?_, ?_, ?_⟩
  · intro nonneg
    rw [Arithmetic.power_of_nonneg smallLeft smallRight nonneg]
    refine ⟨fun small => ?_, Arithmetic.saturate_nearestDouble_of_le,
      Arithmetic.saturate_nearestDouble_of_le_neg⟩
    have least : Int64.minValue.toInt = -2 ^ 63 := by decide
    have greatest : Int64.maxValue.toInt = 2 ^ 63 - 1 := by decide
    rw [Arithmetic.nearestDouble_of_natAbs_le small, Arithmetic.toInt_saturate]
    omega
  · rintro rfl
    rw [Arithmetic.power_of_nonneg smallLeft smallRight (by decide)]
    exact (congrArg _ (congrArg _ (pow_zero _))).trans (by decide)
  · exact Arithmetic.power_of_neg smallLeft smallRight

/-- The forty-first power of minus three is below every word, and odd. -/
theorem power_exact_or_bound_odd_power :
    (BinaryOp.between .power).apply (-3) 41 (.ofList []) = (.ok Int64.minValue, .ofList []) := by
  obtain ⟨value, applied, nonneg, -⟩ :=
    power_exact_or_bound (-3) 41 (.ofList []) (by decide) (by decide)
  obtain ⟨-, -, low⟩ := nonneg (by decide)
  rw [applied, low (by decide)]

end TableFormula
