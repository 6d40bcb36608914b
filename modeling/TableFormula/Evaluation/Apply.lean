import TableFormula.Arithmetic.Power
import TableFormula.Evaluation.Error
import TableFormula.Evaluation.RandomWords

/-!
Sums, products and negation wrap around. A quotient is cut toward zero, and a divisor of zero is a
fault, as is the one quotient that no word holds. Comparisons give one or zero. Only `rand` draws from
the random source, one word for each application.
-/

namespace TableFormula

def PrefixOp.apply : PrefixOp → Int64 → Int64
  | plus, value => value
  | negate, value => -value

def truth (holds : Bool) : Int64 := if holds then 1 else 0

def divide (left right : Int64) : Except EvalError Int64 :=
  if right = 0 then .error (.divisionByZero left)
  else if left = Int64.minValue ∧ right = -1 then
    .error (.overflow (.between .divide) left right)
  else .ok (left / right)

def InfixOp.apply : InfixOp → Int64 → Int64 → Except EvalError Int64
  | equal, left, right => .ok (truth (left == right))
  | notEqual, left, right => .ok (truth (left != right))
  | less, left, right => .ok (truth (left < right))
  | greater, left, right => .ok (truth (left > right))
  | lessEqual, left, right => .ok (truth (left ≤ right))
  | greaterEqual, left, right => .ok (truth (left ≥ right))
  | add, left, right => .ok (left + right)
  | subtract, left, right => .ok (left - right)
  | multiply, left, right => .ok (left * right)
  | divide, left, right => TableFormula.divide left right
  | power, left, right => .ok (Arithmetic.power left right)

def Builtin.apply (fn : Builtin) (left right : Int64) (source : RandomWords) :
    Int64 × RandomWords :=
  match fn with
  | min => (if left ≤ right then left else right, source)
  | max => (if left ≤ right then right else left, source)
  | rand =>
    let (word, after) := source.draw
    (if RandomWords.heads word then left else right, after)

def BinaryOp.apply (op : BinaryOp) (left right : Int64) (source : RandomWords) :
    Except EvalError Int64 × RandomWords :=
  match op with
  | between op => (op.apply left right, source)
  | call fn =>
    let (value, after) := fn.apply left right source
    (.ok value, after)

theorem BinaryOp.snd_apply (op : BinaryOp) (left right : Int64) (source : RandomWords) :
    (op.apply left right source).2 = source.advance (if op = .call .rand then 1 else 0) := by
  rcases op with op | fn
  · rfl
  · cases fn <;> rfl

/-- A quotient that is no fault is the exact one, cut toward zero. -/
theorem toInt_of_divide {left right value : Int64} (h : divide left right = .ok value) :
    right ≠ 0 ∧ value.toInt = left.toInt.tdiv right.toInt := by
  unfold divide at h
  split at h
  · cases h
  · rename_i nonzero
    split at h
    · cases h
    · rename_i fits
      cases h
      refine ⟨nonzero, ?_⟩
      by_cases least : left = Int64.minValue
      · exact Int64.toInt_div_of_ne_right _ _ fun one => fits ⟨least, one⟩
      · exact Int64.toInt_div_of_ne_left _ _ least

end TableFormula
