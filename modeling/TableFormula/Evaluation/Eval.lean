import TableFormula.Evaluation.Apply
import TableFormula.Formula.Basic

/-!
Operands are evaluated from left to right and before their operator; of a conditional, first the
condition and then only the branch that it selects. Words that were drawn before a fault stay drawn.
-/

namespace TableFormula

namespace Formula

/-- What every property counts as: formulas name properties and do not resolve them. -/
def propertyValue : Int64 := 1

/-- The value of a formula or the fault that it meets, and the random source afterwards. -/
def eval : Formula → RandomWords → Except EvalError Int64 × RandomWords
  | constant value, source => (.ok value, source)
  | unary op operand, source =>
    match operand.eval source with
    | (.error fault, source) => (.error fault, source)
    | (.ok value, source) => (.ok (op.apply value), source)
  | binary op left right, source =>
    match left.eval source with
    | (.error fault, source) => (.error fault, source)
    | (.ok leftValue, source) =>
      match right.eval source with
      | (.error fault, source) => (.error fault, source)
      | (.ok rightValue, source) => op.apply leftValue rightValue source
  | conditional condition first second, source =>
    match condition.eval source with
    | (.error fault, source) => (.error fault, source)
    | (.ok value, source) =>
      match Branch.select value with
      | .first => first.eval source
      | .second => second.eval source
  | property _, source => (.ok propertyValue, source)

/-- Goes on with the value of a run, if it has one; a fault ends the evaluation. -/
def andThen (run : Except EvalError Int64 × RandomWords)
    (next : Int64 → RandomWords → Except EvalError Int64 × RandomWords) :
    Except EvalError Int64 × RandomWords :=
  match run with
  | (.error fault, source) => (.error fault, source)
  | (.ok value, source) => next value source

theorem andThen_eq_ok {run : Except EvalError Int64 × RandomWords}
    {next : Int64 → RandomWords → Except EvalError Int64 × RandomWords} {value : Int64}
    {after : RandomWords} :
    andThen run next = (.ok value, after) ↔
      ∃ first between, run = (.ok first, between) ∧ next first between = (.ok value, after) := by
  constructor
  · intro ended
    obtain ⟨result, between⟩ := run
    cases result with
    | error fault => cases ended
    | ok first => exact ⟨first, between, rfl, ended⟩
  · rintro ⟨first, between, rfl, ended⟩
    exact ended

theorem eval_unary (op : PrefixOp) (operand : Formula) (source : RandomWords) :
    (unary op operand).eval source =
      andThen (operand.eval source) fun value source => (.ok (op.apply value), source) := by
  simp only [eval, andThen]

theorem eval_binary (op : BinaryOp) (left right : Formula) (source : RandomWords) :
    (binary op left right).eval source =
      andThen (left.eval source) fun leftValue source =>
        andThen (right.eval source) fun rightValue source =>
          op.apply leftValue rightValue source := by
  simp only [eval, andThen]

theorem eval_conditional (condition first second : Formula) (source : RandomWords) :
    (conditional condition first second).eval source =
      andThen (condition.eval source) fun value source =>
        match Branch.select value with
        | .first => first.eval source
        | .second => second.eval source := by
  simp only [eval, andThen]

def fold? (formula : Formula) : Option Int64 :=
  if formula.isConstant then
    match (formula.eval (.ofList [])).1 with
    | .ok value => some value
    | .error _ => none
  else none

/-- The results of evaluating formulas in turn, and the random source afterwards. -/
def evalAll : List Formula → RandomWords → List (Except EvalError Int64) × RandomWords
  | [], source => ([], source)
  | formula :: formulas, source =>
    let (result, source) := formula.eval source
    let (results, source) := evalAll formulas source
    (result :: results, source)

end Formula

end TableFormula
