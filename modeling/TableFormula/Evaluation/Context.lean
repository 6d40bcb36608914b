import TableFormula.Evaluation.Eval

namespace TableFormula

/-- A formula with a hole in it, which evaluation reaches at most once. -/
inductive Context where
  | hole
  | operand (op : PrefixOp) (inner : Context)
  | left (op : BinaryOp) (inner : Context) (right : Formula)
  | right (op : BinaryOp) (left : Formula) (inner : Context)
  | condition (inner : Context) (first second : Formula)
  | first (condition : Formula) (inner : Context) (second : Formula)
  | second (condition first : Formula) (inner : Context)

namespace Context

/-- The formula with another one in the hole. -/
def fill : Context → Formula → Formula
  | hole, formula => formula
  | operand op inner, formula => .unary op (inner.fill formula)
  | left op inner r, formula => .binary op (inner.fill formula) r
  | right op l inner, formula => .binary op l (inner.fill formula)
  | condition inner a b, formula => .conditional (inner.fill formula) a b
  | first c inner b, formula => .conditional c (inner.fill formula) b
  | second c a inner, formula => .conditional c a (inner.fill formula)

/-- The random source with which evaluation reaches the hole, if it does. -/
def reach : Context → RandomWords → Option RandomWords
  | hole, source => some source
  | operand _ inner, source => inner.reach source
  | left _ inner _, source => inner.reach source
  | right _ l inner, source =>
    match l.eval source with
    | (.ok _, source) => inner.reach source
    | (.error _, _) => none
  | condition inner _ _, source => inner.reach source
  | first c inner _, source =>
    match c.eval source with
    | (.ok value, source) => if value = 0 then none else inner.reach source
    | (.error _, _) => none
  | second c _ inner, source =>
    match c.eval source with
    | (.ok value, source) => if value = 0 then inner.reach source else none
    | (.error _, _) => none

end Context

end TableFormula
