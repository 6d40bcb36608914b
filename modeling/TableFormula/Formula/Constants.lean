import TableFormula.Formula.Basic

namespace TableFormula

/-- Puts `value` in the place of what has the index `n`. -/
def writeAt {α : Type} (n : Nat) (value : α) (index : Nat) (old : α) : α :=
  if index = n then value else old

namespace Formula

def constants : Formula → List Int64
  | constant value => [value]
  | unary _ operand => operand.constants
  | binary _ left right => left.constants ++ right.constants
  | conditional condition first second =>
    condition.constants ++ first.constants ++ second.constants
  | property _ => []

/-- The formula with other constants. A new constant may depend on the old one and on its index, where
`start` is the index of the first. -/
def mapConstants (f : Nat → Int64 → Int64) (start : Nat) : Formula → Formula
  | constant value => .constant (f start value)
  | unary op operand => .unary op (operand.mapConstants f start)
  | binary op left right =>
    .binary op (left.mapConstants f start)
      (right.mapConstants f (start + left.constants.length))
  | conditional condition first second =>
    .conditional (condition.mapConstants f start)
      (first.mapConstants f (start + condition.constants.length))
      (second.mapConstants f (start + condition.constants.length + first.constants.length))
  | property reference => .property reference

/-- The formula with `value` in the place of its `n`-th constant, counted from zero. -/
def setConstant (n : Nat) (value : Int64) (formula : Formula) : Formula :=
  formula.mapConstants (writeAt n value) 0

theorem constants_mapConstants (f : Nat → Int64 → Int64) (start : Nat) (formula : Formula) :
    (formula.mapConstants f start).constants =
      formula.constants.mapIdx fun index => f (start + index) := by
  induction formula generalizing start with
  | constant | property => rfl
  | unary op operand ih => exact ih start
  | binary op left right ihLeft ihRight =>
    rw [mapConstants, constants, constants, List.mapIdx_append, ihLeft, ihRight]
    simp only [Nat.add_left_comm, Nat.add_comm]
  | conditional condition first second ihCondition ihFirst ihSecond =>
    rw [mapConstants, constants, constants, List.mapIdx_append, List.mapIdx_append,
      List.length_append, ihCondition, ihFirst, ihSecond]
    simp only [Nat.add_assoc, Nat.add_left_comm, Nat.add_comm]

/-- No other constant is changed. -/
theorem constants_setConstant (n : Nat) (value : Int64) (formula : Formula) :
    (formula.setConstant n value).constants = formula.constants.set n value := by
  rw [setConstant, constants_mapConstants]
  refine List.ext_getElem (by rw [List.length_mapIdx, List.length_set]) fun index _ _ => ?_
  rw [List.getElem_mapIdx, List.getElem_set, Nat.zero_add]
  simp only [writeAt, eq_comm]

theorem height_mapConstants (f : Nat → Int64 → Int64) (start : Nat) (formula : Formula) :
    (formula.mapConstants f start).height = formula.height := by
  induction formula generalizing start with
  | constant | property => rfl
  | unary op operand ih => rw [mapConstants, height, height, ih]
  | binary op left right ihLeft ihRight => rw [mapConstants, height, height, ihLeft, ihRight]
  | conditional condition first second ihCondition ihFirst ihSecond =>
    rw [mapConstants, height, height, ihCondition, ihFirst, ihSecond]

end Formula

end TableFormula
