import TableFormula.Evaluation.Eval

/-! The rules of evaluation over all whole numbers, where nothing overflows. -/

namespace TableFormula

def FitsWord (n : Int) : Prop := Int64.minValue.toInt ≤ n ∧ n ≤ Int64.maxValue.toInt

instance : DecidablePred FitsWord := fun _ => inferInstanceAs (Decidable (_ ∧ _))

def PrefixOp.exact : PrefixOp → Int → Int
  | plus, n => n
  | negate, n => -n

/-- The exact result, or the dividend of a division by zero. A power needs an exponent that is not
negative. -/
def InfixOp.exact : InfixOp → Int → Int → Except Int Int
  | equal, m, n => .ok (if m = n then 1 else 0)
  | notEqual, m, n => .ok (if m = n then 0 else 1)
  | less, m, n => .ok (if m < n then 1 else 0)
  | greater, m, n => .ok (if n < m then 1 else 0)
  | lessEqual, m, n => .ok (if m ≤ n then 1 else 0)
  | greaterEqual, m, n => .ok (if n ≤ m then 1 else 0)
  | add, m, n => .ok (m + n)
  | subtract, m, n => .ok (m - n)
  | multiply, m, n => .ok (m * n)
  | divide, m, n => if n = 0 then .error m else .ok (m.tdiv n)
  | power, m, n => .ok (m.pow n.toNat)

def Builtin.exact (fn : Builtin) (m n : Int) (source : RandomWords) : Int × RandomWords :=
  match fn with
  | min => (if m ≤ n then m else n, source)
  | max => (if m ≤ n then n else m, source)
  | rand =>
    let (word, after) := source.draw
    (if RandomWords.heads word then m else n, after)

def BinaryOp.exact (op : BinaryOp) (m n : Int) (source : RandomWords) :
    Except Int Int × RandomWords :=
  match op with
  | between op => (op.exact m n, source)
  | call fn =>
    let (value, after) := fn.exact m n source
    (.ok value, after)

structure ExactRun where
  /-- The value of each part that has one, in the order of evaluation. -/
  met : List Int
  /-- The value of the whole, or the dividend of the division by zero that ended the run. -/
  result : Except Int Int
  source : RandomWords

namespace ExactRun

def value (n : Int) (source : RandomWords) : ExactRun := ⟨[n], .ok n, source⟩

def note (met : List Int) (outcome : Except Int Int × RandomWords) : ExactRun :=
  match outcome with
  | (.ok n, source) => ⟨met ++ [n], .ok n, source⟩
  | (.error dividend, source) => ⟨met, .error dividend, source⟩

/-- Goes on with the value of a run, if it has one. -/
def andThen (run : ExactRun) (next : Int → RandomWords → ExactRun) : ExactRun :=
  match run.result with
  | .error _ => run
  | .ok n =>
    let later := next n run.source
    { later with met := run.met ++ later.met }

end ExactRun

namespace Formula

def exact : Formula → RandomWords → ExactRun
  | constant value, source => .value value.toInt source
  | unary op operand, source =>
    (operand.exact source).andThen fun n source => .value (op.exact n) source
  | binary op left right, source =>
    (left.exact source).andThen fun m source =>
    (right.exact source).andThen fun n source => .note [] (op.exact m n source)
  | conditional condition first second, source =>
    (condition.exact source).andThen fun n source =>
      if n = 0 then second.exact source else first.exact source
  | property _, source => .value propertyValue.toInt source

def IsPolynomial : Formula → Prop
  | constant _ | property _ => True
  | unary _ operand => operand.IsPolynomial
  | binary (.between op) left right =>
    (op = .add ∨ op = .subtract ∨ op = .multiply) ∧ left.IsPolynomial ∧ right.IsPolynomial
  | _ => False

/-- The whole number that such a formula stands for. -/
def polynomialValue : Formula → Int
  | constant value => value.toInt
  | property _ => 1
  | unary .plus operand => operand.polynomialValue
  | unary .negate operand => -operand.polynomialValue
  | binary (.between .add) left right => left.polynomialValue + right.polynomialValue
  | binary (.between .subtract) left right => left.polynomialValue - right.polynomialValue
  | binary (.between .multiply) left right => left.polynomialValue * right.polynomialValue
  | _ => 0

end Formula

end TableFormula
