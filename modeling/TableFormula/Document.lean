/-! What a data file holds: flags, numbers and texts, in lists and records. -/

namespace TableFormula

inductive Document where
  | flag (value : Bool)
  | whole (value : Int)
  | text (value : String)
  | list (items : List Document)
  | record (members : List (String × Document))
  /-- Anything else, such as an empty value or a number that is not whole. -/
  | other
  deriving Inhabited

end TableFormula
