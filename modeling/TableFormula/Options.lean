import TableFormula.Document

/-!
A document may set the options by name, in a record, or by place, in a list; options that it leaves
out keep their defaults.
-/

namespace TableFormula

structure Options where
  /-- Accept a formula that ends inside parentheses, such as `(3+2)*(6/3`. -/
  allowUnclosedParens : Bool := true
  /-- Refuse a formula with tokens behind it, such as `1 2`. -/
  rejectTrailing : Bool := true
  /-- How deep a formula may be nested, and how high its tree may be. -/
  maxDepth : Nat := 128
  deriving DecidableEq

namespace Options

def flag? (default : Bool) : Option Document → Option Bool
  | none => some default
  | some (.flag value) => some value
  | some _ => none

def depth? (default : Nat) : Option Document → Option Nat
  | none => some default
  | some (.whole value) => if 0 ≤ value ∧ value < 0x10000000000000000 then some value.toNat else none
  | some _ => none

def ofFields? (allowUnclosedParens rejectTrailing maxDepth : Option Document) :
    Option Options := do
  let unset : Options := {}
  let allowUnclosedParens ← flag? unset.allowUnclosedParens allowUnclosedParens
  let rejectTrailing ← flag? unset.rejectTrailing rejectTrailing
  let maxDepth ← depth? unset.maxDepth maxDepth
  return { allowUnclosedParens, rejectTrailing, maxDepth }

/-- The options in a document. Members of a record that name no option have no effect. -/
def ofDocument? : Document → Option Options
  | .record members =>
    ofFields? (members.lookup "allow_unclosed_final_paren") (members.lookup "reject_trailing")
      (members.lookup "max_depth")
  | .list items =>
    if items.length ≤ 3 then ofFields? items[0]? items[1]? items[2]? else none
  | _ => none

end Options

end TableFormula
