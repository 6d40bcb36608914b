import TableFormula.Text.Quoted

/-! Why no token can be read. Positions count the UTF-8 bytes before the fault. -/

namespace TableFormula

inductive LexFault where
  /-- The character `=` or `!` without an equals sign behind it. -/
  | invalidOperator (op : Char) (position : Nat)
  | invalidCharacter (c : Char) (position : Nat)
  | unterminatedString (position : Nat)
  deriving DecidableEq

namespace LexFault

def position : LexFault → Nat
  | invalidOperator _ position | invalidCharacter _ position | unterminatedString position =>
    position

def message : LexFault → String
  | invalidOperator op position =>
    "invalid operator '" ++ op.toString ++ "' at index " ++ position.repr ++ ", expected '" ++
      op.toString ++ "='"
  | invalidCharacter c position =>
    "invalid character " ++ Text.quoteChar c ++ " at index " ++ position.repr
  | unterminatedString position => "unterminated string starting at index " ++ position.repr

end LexFault

end TableFormula
