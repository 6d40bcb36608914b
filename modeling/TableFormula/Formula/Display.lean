import TableFormula.Formula.Basic

/-!
A formula is shown by the kind of its root and, in parentheses, what the root holds. Texts stand as
they are, without escapes.
-/

namespace TableFormula

def Reference.display (reference : Reference) : String :=
  "Property(" ++ reference.kind ++ ", '" ++ reference.name ++ "', " ++ reference.qualifier ++ ")"

def BinaryOp.title (op : BinaryOp) : String := if op.isCall then "Call" else "Binary"

def Formula.display : Formula → String
  | constant value => "Constant(" ++ value.toInt.repr ++ ")"
  | unary op operand => "Unary(" ++ op.symbol ++ ", " ++ operand.display ++ ")"
  | binary op left right =>
    op.title ++ "(" ++ op.symbol ++ ", " ++ left.display ++ ", " ++ right.display ++ ")"
  | conditional condition first second =>
    "Ternary(" ++ condition.display ++ ", " ++ first.display ++ ", " ++ second.display ++ ")"
  | property reference => reference.display

end TableFormula
