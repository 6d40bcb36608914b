import TableFormula.Formula.Basic
import TableFormula.Text.JsonString

/-!
A formula is stored as compact JSON: an object with one member, whose key is the kind of the root.
Operators are stored by name.
-/

namespace TableFormula

open Text

/-- An object with the given members in order, whose values are already JSON. -/
def jsonObject (members : List (String × String)) : String :=
  let member := fun (key, value) => jsonString key ++ ":" ++ value
  "\x7b" ++ ",".intercalate (members.map member) ++ "\x7d"

def Reference.toJson (reference : Reference) : String :=
  jsonObject [("kind", jsonString reference.kind), ("name", jsonString reference.name),
    ("qualifier", jsonString reference.qualifier)]

def Formula.toJson : Formula → String
  | constant value => jsonObject [("Constant", value.toInt.repr)]
  | unary op operand =>
    jsonObject [("Unary", jsonObject [("op", jsonString op.name), ("child", operand.toJson)])]
  | binary op left right =>
    jsonObject [("Binary", jsonObject
      [("op", jsonString op.name), ("left", left.toJson), ("right", right.toJson)])]
  | conditional condition first second =>
    jsonObject [("Ternary", jsonObject
      [("op", jsonString Conditional.name), ("condition", condition.toJson),
        ("then", first.toJson), ("otherwise", second.toJson)])]
  | property reference => jsonObject [("Property", reference.toJson)]

end TableFormula
