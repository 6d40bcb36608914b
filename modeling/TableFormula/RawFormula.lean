import TableFormula.Document
import TableFormula.Text.Blank
import TableFormula.Text.JsonString

/-! The text of a formula as a table cell holds it, before it is parsed. -/

namespace TableFormula

structure RawFormula where
  text : String := ""
  deriving DecidableEq

namespace RawFormula

def isBlank (raw : RawFormula) : Bool := raw.text.toList.all Text.isBlank

def toJson (raw : RawFormula) : String := Text.jsonString raw.text

/-- The raw formula in a document, which must be a text. -/
def ofDocument? : Document → Option RawFormula
  | .text text => some ⟨text⟩
  | _ => none

end RawFormula

end TableFormula
