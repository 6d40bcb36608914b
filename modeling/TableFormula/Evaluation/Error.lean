import TableFormula.Operator

namespace TableFormula

inductive EvalError where
  | divisionByZero (dividend : Int64)
  /-- No word holds the exact result of the operation. -/
  | overflow (op : BinaryOp) (left right : Int64)
  deriving DecidableEq

def EvalError.message : EvalError → String
  | divisionByZero dividend => "division by zero: " ++ dividend.toInt.repr ++ " / 0"
  | overflow op left right =>
    "integer overflow: " ++ left.toInt.repr ++ " " ++ op.symbol ++ " " ++ right.toInt.repr

end TableFormula
