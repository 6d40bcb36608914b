import TableFormula.Token.Basic
import TableFormula.Token.Fault

/-!
The first fault that reading meets is the one reported. A fault of syntax carries the token at which
it was found.
-/

namespace TableFormula

/-- A token that the grammar fixes at its place inside a conditional, a property reference or a
call. -/
inductive Expectation where
  | conditionalMarker
  | openReference
  | referenceName
  | referenceDot
  | referenceQualifier
  | closeReference
  | openCall
  | callComma
  | closeCall
  deriving DecidableEq

namespace Expectation

def text : Expectation → String
  | conditionalMarker => "':' in conditional"
  | openReference => "'(' after property kind"
  | referenceName => "quoted property name"
  | referenceDot => "'.' after property name"
  | referenceQualifier => "property qualifier"
  | closeReference => "')' to close property reference"
  | openCall => "'(' after function name"
  | callComma => "',' between function arguments"
  | closeCall => "')' to close function call"

def accepts : Expectation → Token → Bool
  | conditionalMarker, token => token.isSymbol ":"
  | openReference, token | openCall, token => token.isSymbol "("
  | referenceName, .string _ => true
  | referenceDot, token => token.isSymbol "."
  | referenceQualifier, .name _ => true
  | closeReference, token | closeCall, token => token.isSymbol ")"
  | callComma, token => token.isSymbol ","
  | _, _ => false

theorem not_accepts_endOfInput (what : Expectation) : what.accepts .endOfInput = false := by
  cases what <;> rfl

end Expectation

inductive ParseError where
  | lexical (fault : LexFault)
  | expected (what : Expectation) (found : Token)
  | unclosedParenthesis (found : Token)
  /-- A number above every word. -/
  | invalidNumber (digits : String)
  /-- A token with which no operand begins. -/
  | unexpectedToken (found : Token)
  | notAValue (found : Token)
  | unknownFunction (name : String)
  | tooDeep (limit : Nat)
  | trailingInput (found : Token)
  deriving DecidableEq

namespace ParseError

def found? : ParseError → Option Token
  | expected _ found | unclosedParenthesis found | unexpectedToken found | notAValue found
  | trailingInput found => some found
  | _ => none

def message : ParseError → String
  | lexical fault => fault.message
  | expected what found => "expected " ++ what.text ++ ", found " ++ found.display
  | unclosedParenthesis found => "parenthesis not closed, found " ++ found.display
  | invalidNumber digits => "invalid number: " ++ digits
  | unexpectedToken found =>
    "expected parenthesis, unary operator, function or value, found " ++ found.display
  | notAValue found => found.display ++ " is not a function, property, or number"
  | unknownFunction name => "unknown function: " ++ name
  | tooDeep limit => "formula nested deeper than " ++ limit.repr ++ " levels"
  | trailingInput found => "unexpected " ++ found.display ++ " after expression"

end ParseError

end TableFormula
