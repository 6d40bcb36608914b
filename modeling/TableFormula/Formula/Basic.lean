import TableFormula.Operator

/-! Trees of operations over whole numbers and over properties, which are named and not resolved. -/

namespace TableFormula

/-- The name of a value outside the formula: `skill('Zeal'.lvl)` has the kind `skill`, the name
`Zeal` and the qualifier `lvl`. -/
structure Reference where
  kind : String
  name : String
  qualifier : String
  deriving DecidableEq

inductive Formula where
  | constant (value : Int64)
  | unary (op : PrefixOp) (operand : Formula)
  | binary (op : BinaryOp) (left right : Formula)
  | conditional (condition first second : Formula)
  | property (reference : Reference)
  deriving DecidableEq

namespace Formula

/-- The formula of an empty table cell. -/
def zero : Formula := constant 0

instance : Inhabited Formula := ⟨zero⟩

def references : Formula → List Reference
  | constant _ => []
  | unary _ operand => operand.references
  | binary _ left right => left.references ++ right.references
  | conditional condition first second =>
    condition.references ++ first.references ++ second.references
  | property reference => [reference]

def isConstant : Formula → Bool
  | constant _ => true
  | unary _ operand => operand.isConstant
  | binary op left right => !op.isRandom && left.isConstant && right.isConstant
  | conditional condition first second =>
    condition.isConstant && first.isConstant && second.isConstant
  | property _ => false

/-- No node of the formula applies the operation. -/
def Without (op : BinaryOp) : Formula → Prop
  | constant _ | property _ => True
  | unary _ operand => operand.Without op
  | binary other left right => other ≠ op ∧ left.Without op ∧ right.Without op
  | conditional condition first second =>
    condition.Without op ∧ first.Without op ∧ second.Without op

instance decidableWithout (op : BinaryOp) : DecidablePred (Without op)
  | constant _ | property _ => inferInstanceAs (Decidable True)
  | unary _ operand => decidableWithout op operand
  | binary _ left right =>
    have := decidableWithout op left
    have := decidableWithout op right
    inferInstanceAs (Decidable (_ ∧ _ ∧ _))
  | conditional condition first second =>
    have := decidableWithout op condition
    have := decidableWithout op first
    have := decidableWithout op second
    inferInstanceAs (Decidable (_ ∧ _ ∧ _))

/-- The number of nodes that apply the operation. -/
def count (op : BinaryOp) : Formula → Nat
  | constant _ | property _ => 0
  | unary _ operand => operand.count op
  | binary other left right =>
    left.count op + (right.count op + if other = op then 1 else 0)
  | conditional condition first second =>
    condition.count op + (first.count op + second.count op)

theorem count_eq_zero_iff {op : BinaryOp} {formula : Formula} :
    formula.count op = 0 ↔ formula.Without op := by
  induction formula with
  | constant | property => simp [count, Without]
  | unary other operand ih => exact ih
  | binary other left right ihLeft ihRight =>
    simp only [count, Without, Nat.add_eq_zero_iff, ihLeft, ihRight, ite_eq_right_iff]
    grind
  | conditional condition first second ihCondition ihFirst ihSecond =>
    simp only [count, Without, Nat.add_eq_zero_iff, ihCondition, ihFirst, ihSecond]

/-- No node of the formula is a conditional. -/
def Unconditional : Formula → Prop
  | constant _ | property _ => True
  | unary _ operand => operand.Unconditional
  | binary _ left right => left.Unconditional ∧ right.Unconditional
  | conditional _ _ _ => False

/-- The number of nodes on the longest path from the root to a leaf. -/
def height : Formula → Nat
  | constant _ | property _ => 1
  | unary _ operand => operand.height + 1
  | binary _ left right => max left.height right.height + 1
  | conditional condition first second =>
    max (max condition.height first.height) second.height + 1

theorem height_pos (formula : Formula) : 0 < formula.height := by
  cases formula <;> simp [height]

theorem isConstant_iff {formula : Formula} :
    formula.isConstant = true ↔ formula.references = [] ∧ formula.Without (.call .rand) := by
  induction formula with
  | constant value => simp [isConstant, references, Without]
  | unary op operand ih => exact ih
  | binary op left right ihLeft ihRight =>
    simp only [isConstant, references, Without, BinaryOp.isRandom, Bool.and_eq_true,
      Bool.not_eq_true', beq_eq_false_iff_ne, List.append_eq_nil_iff, ihLeft, ihRight]
    grind
  | conditional condition first second ihCondition ihFirst ihSecond =>
    simp only [isConstant, references, Without, Bool.and_eq_true, List.append_eq_nil_iff,
      ihCondition, ihFirst, ihSecond]
    grind
  | property reference => simp [isConstant, references]

end Formula

end TableFormula
