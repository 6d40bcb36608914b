import TableFormula.Formula.Display
import TableFormula.Grammar.Reader
import TableFormula.RawFormula

/-!
`parse` reports the first fault of a text; `load` never fails, because a table with a wrong formula
must still load. A blank text is the formula zero.
-/

namespace TableFormula

open TokenSource

/-- Reads a whole formula. With `rejectTrailing`, nothing may follow it. -/
def readFormula {σ : Type} [TokenSource σ] (options : Options) (owner : Owner) (source : σ) :
    Except ParseError Formula := do
  let parsed ← expr options owner 0 0 source
  if options.rejectTrailing then
    let ahead ← lookahead parsed.source
    if ahead.token.isEnd then .ok parsed.formula else .error (.trailingInput ahead.token)
  else .ok parsed.formula

inductive LogRecord where
  /-- The formula was replaced by zero. -/
  | fault (text : String) (error : ParseError)
  | parsed (text : String) (formula : Formula)
  deriving DecidableEq

namespace LogRecord

def level : LogRecord → String
  | fault _ _ => "WARN"
  | parsed _ _ => "DEBUG"

def message : LogRecord → String
  | fault text error => "Error parsing calculation " ++ Text.quote text ++ ": " ++ error.message
  | parsed text formula => "Parsed calculation " ++ Text.quote text ++ ": " ++ formula.display

end LogRecord

structure Parser where
  options : Options := {}
  owner : Owner := {}
  deriving DecidableEq

namespace Parser

/-- The formula in a text whose bare names belong to `owner`. Positions in faults count from the
first character that is not blank. -/
def parseFor (parser : Parser) (owner : Owner) (text : String) : Except ParseError Formula :=
  match Text.trim text.toList with
  | [] => .ok .zero
  | trimmed => readFormula parser.options owner ({ rest := trimmed } : Lexer)

/-- The formula in a text. -/
def parse (parser : Parser) (text : String) : Except ParseError Formula :=
  parser.parseFor parser.owner text

/-- The formula in a text whose bare names belong to `owner`, or zero, and a record for the log. The
record of a fault shows the text as it is, that of a success without the blanks around it. -/
def loadFor (parser : Parser) (owner : Owner) (text : String) : Formula × Option LogRecord :=
  match parser.parseFor owner text with
  | .error error => (.zero, some (.fault text error))
  | .ok formula =>
    match Text.trim text.toList with
    | [] => (formula, none)
    | trimmed => (formula, some (.parsed (String.ofList trimmed) formula))

def load (parser : Parser) (text : String) : Formula × Option LogRecord :=
  parser.loadFor parser.owner text

/-- The formula of a table cell, or zero, and a record for the log. -/
def loadRaw (parser : Parser) (raw : RawFormula) : Formula × Option LogRecord :=
  parser.load raw.text

end Parser

/-- The formula in a text, by default options and without an owner. -/
def parse (text : String) : Except ParseError Formula := ({} : Parser).parse text

end TableFormula
