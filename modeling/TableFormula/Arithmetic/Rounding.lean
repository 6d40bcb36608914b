/-!
`roundBits n bits` is the number with at most `bits` significant bits that lies nearest to `n`; of two
that lie equally near, it is the one whose last significant bit is zero.
-/

namespace TableFormula.Arithmetic

/-- `n / unit` rounded to the nearest whole number, a half to the even neighbour. -/
def roundQuotient (n unit : Nat) : Nat :=
  let quotient := n / unit
  let twice := 2 * (n % unit)
  if twice < unit ∨ twice = unit ∧ quotient % 2 = 0 then quotient else quotient + 1

/-- The value of the last bit that is kept of `n`. -/
def lastUnit (n bits : Nat) : Nat := 1 <<< (n.log2 + 1 - bits)

def roundBits (n bits : Nat) : Nat := roundQuotient n (lastUnit n bits) * lastUnit n bits

theorem roundQuotient_one (n : Nat) : roundQuotient n 1 = n := by
  simp [roundQuotient, Nat.mod_one]

theorem lastUnit_of_log2_lt {n bits : Nat} (few : n.log2 < bits) : lastUnit n bits = 1 := by
  rw [lastUnit, Nat.sub_eq_zero_of_le few, Nat.shiftLeft_zero]

theorem roundBits_of_log2_lt {n bits : Nat} (few : n.log2 < bits) : roundBits n bits = n := by
  rw [roundBits, lastUnit_of_log2_lt few, roundQuotient_one, Nat.mul_one]

/-- The whole number nearest to `n` that a binary64 floating-point number can hold when its exponent
is free: 53 significant bits with the sign of `n`. -/
def nearestDouble (n : Int) : Int := n.sign * roundBits n.natAbs 53

theorem nearestDouble_of_log2_lt {n : Int} (few : n.natAbs.log2 < 53) : nearestDouble n = n := by
  rw [nearestDouble, roundBits_of_log2_lt few]
  exact Int.sign_mul_natAbs n

end TableFormula.Arithmetic
