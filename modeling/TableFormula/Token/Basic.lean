import TableFormula.Text.Quoted

/-!
The end of a text counts as a token too. A token keeps its text as written; of a string, without the
quotes.
-/

namespace TableFormula

inductive Token where
  | name (text : String)
  | string (text : String)
  | symbol (text : String)
  | number (text : String)
  | endOfInput
  deriving DecidableEq

namespace Token

def quoteMark : Char := '\''

def text : Token → String
  | name text | string text | symbol text | number text => text
  | endOfInput => ""

def kind : Token → String
  | name _ => "Name"
  | string _ => "String"
  | symbol _ => "Symbol"
  | number _ => "Number"
  | endOfInput => "EndOfInput"

/-- The token of a kind with a text, of which the end of the text has none. -/
def ofKind? (kind text : String) : Option Token :=
  [name text, string text, symbol text, number text, endOfInput].find? (·.kind == kind)

def isSymbol (token : Token) (text : String) : Bool := token == symbol text

def isEnd (token : Token) : Bool := token == endOfInput

def spelling : Token → List Char
  | string text => quoteMark :: text.toList ++ [quoteMark]
  | token => token.text.toList

/-- How a message shows a token. A string stands between its own quotes, without escapes. -/
def display : Token → String
  | endOfInput => "end of input"
  | string text => "String '" ++ text ++ "'"
  | token => token.kind ++ " " ++ Text.quote token.text

theorem isSymbol_iff {token : Token} {text : String} :
    token.isSymbol text = true ↔ token = symbol text := by simp [isSymbol]

theorem ne_endOfInput_of_isSymbol {token : Token} {text : String}
    (same : token.isSymbol text = true) : token ≠ endOfInput := by
  rw [isSymbol_iff.mp same]
  exact Token.noConfusion

theorem isSymbol_eq_false_iff {token : Token} {text : String} :
    token.isSymbol text = false ↔ token ≠ symbol text := by simp [isSymbol]

theorem isSymbol_of_ne {text other : String} (h : text ≠ other) :
    (symbol text).isSymbol other = false := by simpa [isSymbol] using h

theorem isEnd_iff {token : Token} : token.isEnd = true ↔ token = endOfInput := by simp [isEnd]

theorem isEnd_eq_false_iff {token : Token} : token.isEnd = false ↔ token ≠ endOfInput := by
  simp [isEnd]

end Token

end TableFormula
