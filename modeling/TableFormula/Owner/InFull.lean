import TableFormula.Owner
import TableFormula.Token.Read

namespace TableFormula.Owner

open Text

/-- The tokens that stand for a token. A name behind a dot belongs to the kind before it. -/
def expand (owner : Owner) (afterDot : Bool) : Token → List Token
  | .name name =>
    if isReserved name || afterDot then [.name name]
    else
      [.name owner.kind, .symbol "(", .string owner.name, .symbol ".", .name name, .symbol ")"]
  | token => [token]

def tokensInFull (owner : Owner) (afterDot : Bool) : List Token → List Token
  | [] => []
  | token :: behind =>
    owner.expand afterDot token ++ owner.tokensInFull (token.isSymbol ".") behind

def charsInFull (owner : Owner) (afterDot : Bool) (cs : List Char) : List Char :=
  match _ : Token.read 0 (cs.dropWhile isBlank) with
  | .error _ => cs
  | .ok (token, rest) =>
    if _ : token = .endOfInput then cs
    else
      cs.takeWhile isBlank ++ (owner.expand afterDot token).flatMap Token.spelling ++
        owner.charsInFull (token.isSymbol ".") rest
termination_by cs.length
decreasing_by
  have := Token.length_lt_of_read ‹_› ‹_›
  have := (List.dropWhile_suffix isBlank (l := cs)).length_le
  omega

/-- The text with each bare name written as the property that it is short for. -/
def inFull (owner : Owner) (text : String) : String :=
  String.ofList (owner.charsInFull false text.toList)

end TableFormula.Owner
