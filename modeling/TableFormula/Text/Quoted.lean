import TableFormula.Text.Printable

/-!
A message quotes a text so that every character can be seen: the usual escapes, a backslash before
the delimiter, and the code of each character that is not printable.
-/

namespace TableFormula.Text

/-- The code of a character between braces, in lower-case hexadecimal without padding. -/
def codeEscape (c : Char) : List Char :=
  ['\\', 'u', '\x7b'] ++ Nat.toDigits 16 c.toNat ++ ['\x7d']

/-- One character of a text that is quoted between two copies of `delimiter`. -/
def quotedChar (delimiter c : Char) : List Char :=
  if c = '\x00' then ['\\', '0']
  else if c = '\t' then ['\\', 't']
  else if c = '\r' then ['\\', 'r']
  else if c = '\n' then ['\\', 'n']
  else if c = '\\' ∨ c = delimiter then ['\\', c]
  else if isPrintable c then [c]
  else codeEscape c

def quotedBetween (delimiter : Char) (cs : List Char) : List Char :=
  delimiter :: cs.flatMap (quotedChar delimiter) ++ [delimiter]

def quoteChar (c : Char) : String := String.ofList (quotedBetween '\'' [c])

def quote (text : String) : String := String.ofList (quotedBetween '"' text.toList)

end TableFormula.Text
