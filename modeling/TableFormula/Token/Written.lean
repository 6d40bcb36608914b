import TableFormula.Token.Read

namespace TableFormula

namespace Token

def symbols : List String :=
  ["^", "==", "!=", ">", ">=", "<", "<=", "+", "-", "/", "*", ".", ",", ":", "?", "(", ")"]

def IsName (text : String) : Prop :=
  ∃ c cs, text.toList = c :: cs ∧ Text.isLetter c = true ∧ cs.all Text.isNameChar = true

instance : DecidablePred IsName := fun text =>
  match spelled : text.toList with
  | [] => .isFalse fun ⟨c, cs, same, _⟩ => List.cons_ne_nil c cs (same.symm.trans spelled)
  | c :: cs =>
    decidable_of_iff (Text.isLetter c = true ∧ cs.all Text.isNameChar = true)
      ⟨fun named => ⟨c, cs, spelled, named⟩, fun ⟨_, _, same, named⟩ => by
        obtain ⟨rfl, rfl⟩ := List.cons.inj (spelled.symm.trans same)
        exact named⟩

def WellFormed : Token → Prop
  | name text => IsName text
  | string text => quoteMark ∉ text.toList
  | symbol text => text ∈ symbols
  | number text => text.toList ≠ [] ∧ text.toList.all Char.isDigit = true
  | endOfInput => False

instance : DecidablePred WellFormed
  | name text => inferInstanceAs (Decidable (IsName text))
  | string text => inferInstanceAs (Decidable (quoteMark ∉ text.toList))
  | symbol text => inferInstanceAs (Decidable (text ∈ symbols))
  | number text =>
    inferInstanceAs (Decidable (text.toList ≠ [] ∧ text.toList.all Char.isDigit = true))
  | endOfInput => inferInstanceAs (Decidable False)

/-- Whether two tokens cannot stand together without a blank. -/
def fuses : Token → Token → Bool
  | name _, name _ | name _, number _ | number _, number _ => true
  | symbol "<", symbol "==" | symbol ">", symbol "==" => true
  | _, _ => false

end Token

/-- Tokens, each with the characters before it. -/
abbrev SpacedTokens := List (List Char × Token)

namespace SpacedTokens

/-- The text of the tokens, with `last` behind them. -/
def written : SpacedTokens → List Char → List Char
  | [], last => last
  | (blanks, token) :: tokens, last => blanks ++ token.spelling ++ written tokens last

/-- Whether each gap is blank, and not empty between tokens that fuse. -/
def Spaced : SpacedTokens → Prop
  | [] => True
  | [(blanks, _)] => blanks.all Text.isBlank = true
  | (blanks, token) :: (gap, next) :: tokens =>
    blanks.all Text.isBlank = true ∧ (token.fuses next = true → gap ≠ []) ∧
      Spaced ((gap, next) :: tokens)

instance decidableSpaced : DecidablePred Spaced
  | [] => .isTrue trivial
  | [_] => inferInstanceAs (Decidable (_ = true))
  | (blanks, token) :: (gap, next) :: tokens =>
    have := decidableSpaced ((gap, next) :: tokens)
    inferInstanceAs (Decidable (blanks.all Text.isBlank = true ∧
      (token.fuses next = true → gap ≠ []) ∧ Spaced ((gap, next) :: tokens)))

end SpacedTokens

end TableFormula
