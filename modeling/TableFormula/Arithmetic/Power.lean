import TableFormula.Arithmetic.Rounding

/-!
A power of two words is taken between their nearest binary64 numbers, rounded once more to binary64,
cut to a whole number and, where a word cannot hold it, brought to the nearest bound. All steps are
exact on whole numbers: an exponent beyond any word's range is first replaced by a smaller one of the
same parity, which leads to the same bound.
-/

namespace TableFormula.Arithmetic

/-- The word nearest to `n`. -/
def saturate (n : Int) : Int64 :=
  if Int64.maxValue.toInt < n then Int64.maxValue
  else if n < Int64.minValue.toInt then Int64.minValue
  else Int64.ofInt n

/-- An exponent below 66 that gives every base the same power up to the bounds of a word. -/
def capExponent (exponent : Nat) : Nat := if exponent < 64 then exponent else 64 + exponent % 2

/-- `base ^ exponent` for whole numbers that a binary64 number can hold. A negative exponent gives
the reciprocal, and of zero an infinity. -/
def powerWhole (base exponent : Int) : Int64 :=
  if exponent < 0 then
    if base = 0 then Int64.maxValue
    else saturate (Int.tdiv 1 (base.pow (capExponent exponent.natAbs)))
  else saturate (nearestDouble (base.pow (capExponent exponent.toNat)))

def power (left right : Int64) : Int64 :=
  powerWhole (nearestDouble left.toInt) (nearestDouble right.toInt)

theorem toInt_saturate (n : Int) :
    (saturate n).toInt = max Int64.minValue.toInt (min n Int64.maxValue.toInt) := by
  have least : Int64.minValue.toInt = -2 ^ 63 := by decide
  have greatest : Int64.maxValue.toInt = 2 ^ 63 - 1 := by decide
  unfold saturate
  split
  · omega
  · split
    · omega
    · rw [Int64.toInt_ofInt_of_le (by omega) (by omega)]
      omega

end TableFormula.Arithmetic
