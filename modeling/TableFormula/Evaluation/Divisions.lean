import TableFormula.Evaluation.Eval

namespace TableFormula

/-- An application of division, and the number of words drawn before it. -/
structure Division where
  dividend : Int64
  divisor : Int64
  drawn : Nat
  deriving DecidableEq

def Division.fault? (division : Division) : Option EvalError :=
  if division.divisor = 0 then some (.divisionByZero division.dividend)
  else if division.dividend = Int64.minValue ∧ division.divisor = -1 then
    some (.overflow (.between .divide) Int64.minValue (-1))
  else none

/-- The course of a run that no fault stops. -/
structure UnstoppedRun where
  value : Int64
  divisions : List Division
  source : RandomWords

/-- An operation that gives a word even where it has no value. -/
def BinaryOp.unstopped (op : BinaryOp) (left right : Int64) (source : RandomWords) :
    UnstoppedRun :=
  match op with
  | between .divide => ⟨left / right, [⟨left, right, source.drawn⟩], source⟩
  | op =>
    match op.apply left right source with
    | (.ok value, source) => ⟨value, [], source⟩
    | (.error _, source) => ⟨0, [], source⟩

namespace Formula

def unstopped : Formula → RandomWords → UnstoppedRun
  | constant value, source => ⟨value, [], source⟩
  | unary op operand, source =>
    let run := operand.unstopped source
    { run with value := op.apply run.value }
  | binary op left right, source =>
    let leftRun := left.unstopped source
    let rightRun := right.unstopped leftRun.source
    let run := op.unstopped leftRun.value rightRun.value rightRun.source
    { run with divisions := leftRun.divisions ++ rightRun.divisions ++ run.divisions }
  | conditional condition first second, source =>
    let run := condition.unstopped source
    let later := match Branch.select run.value with
      | .first => first.unstopped run.source
      | .second => second.unstopped run.source
    { later with divisions := run.divisions ++ later.divisions }
  | property _, source => ⟨propertyValue, [], source⟩

end Formula

end TableFormula
