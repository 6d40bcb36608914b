import TableFormula.Evaluation.Eval

namespace TableFormula

/-- `Outcome formula result`: some choices lead the formula to the result. -/
inductive Outcome : Formula → Except EvalError Int64 → Prop where
  | constant (value : Int64) : Outcome (.constant value) (.ok value)
  | property (reference : Reference) : Outcome (.property reference) (.ok Formula.propertyValue)
  | unary {operand : Formula} {value : Int64} (op : PrefixOp) :
      Outcome operand (.ok value) → Outcome (.unary op operand) (.ok (op.apply value))
  | unaryFault {operand : Formula} {fault : EvalError} (op : PrefixOp) :
      Outcome operand (.error fault) → Outcome (.unary op operand) (.error fault)
  | leftFault {left : Formula} {fault : EvalError} (op : BinaryOp) (right : Formula) :
      Outcome left (.error fault) → Outcome (.binary op left right) (.error fault)
  | rightFault {left right : Formula} {value : Int64} {fault : EvalError} (op : BinaryOp) :
      Outcome left (.ok value) → Outcome right (.error fault) →
      Outcome (.binary op left right) (.error fault)
  | between {left right : Formula} {m n : Int64} (op : InfixOp) :
      Outcome left (.ok m) → Outcome right (.ok n) →
      Outcome (.binary (.between op) left right) (op.apply m n)
  | least {left right : Formula} {m n : Int64} :
      Outcome left (.ok m) → Outcome right (.ok n) →
      Outcome (.binary (.call .min) left right) (.ok (if m ≤ n then m else n))
  | greatest {left right : Formula} {m n : Int64} :
      Outcome left (.ok m) → Outcome right (.ok n) →
      Outcome (.binary (.call .max) left right) (.ok (if m ≤ n then n else m))
  | randLeft {left right : Formula} {m n : Int64} :
      Outcome left (.ok m) → Outcome right (.ok n) →
      Outcome (.binary (.call .rand) left right) (.ok m)
  | randRight {left right : Formula} {m n : Int64} :
      Outcome left (.ok m) → Outcome right (.ok n) →
      Outcome (.binary (.call .rand) left right) (.ok n)
  | conditionFault {condition : Formula} {fault : EvalError} (first second : Formula) :
      Outcome condition (.error fault) →
      Outcome (.conditional condition first second) (.error fault)
  | first {condition first : Formula} {value : Int64} {result : Except EvalError Int64}
      (second : Formula) :
      Outcome condition (.ok value) → value ≠ 0 → Outcome first result →
      Outcome (.conditional condition first second) result
  | second {condition second : Formula} {result : Except EvalError Int64} (first : Formula) :
      Outcome condition (.ok 0) → Outcome second result →
      Outcome (.conditional condition first second) result

end TableFormula
