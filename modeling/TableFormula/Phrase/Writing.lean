import TableFormula.Phrase.Grouping
import TableFormula.Token.Written

namespace TableFormula

/-- A property that a text can name. -/
def Reference.Writable (owner : Owner) (reference : Reference) : Prop :=
  Token.IsName reference.qualifier ∧
    ((isPropertyKind reference.kind = true ∧ Token.quoteMark ∉ reference.name.toList) ∨
      (reference = owner.reference reference.qualifier ∧
        isReserved reference.qualifier = false))

namespace Formula

def Writable (owner : Owner) : Formula → Prop
  | constant value => 0 ≤ value.toInt
  | unary _ operand => operand.Writable owner
  | binary _ left right => left.Writable owner ∧ right.Writable owner
  | conditional condition first second =>
    condition.Writable owner ∧ first.Writable owner ∧ second.Writable owner
  | property reference => reference.Writable owner

/-- The phrase of a property, bare only where it has to be. -/
def referencePhrase (reference : Reference) : Phrase :=
  if isPropertyKind reference.kind ∧ Token.quoteMark ∉ reference.name.toList then
    .reference reference.kind reference.name reference.qualifier
  else .bare reference.qualifier

/-- A phrase, in parentheses unless it can stand bare. -/
def enclose (bare : Prop) [Decidable bare] (phrase : Phrase) : Phrase :=
  if bare then phrase else .group phrase

/-- A formula with parentheses only where they keep its grouping. -/
def minimal : Formula → Phrase
  | constant value => .number value.toInt.repr
  | unary op operand => .prefixed op (enclose (operand.minimal.Fits op.precedence) operand.minimal)
  | binary (.between op) left right =>
    .between op (enclose (left.minimal.Precedes op.precedence) left.minimal)
      (enclose (right.minimal.Fits op.operandLevel) right.minimal)
  | binary (.call fn) left right => .call fn left.minimal right.minimal
  | conditional condition first second =>
    .conditional (enclose (¬condition.minimal.IsConditional) condition.minimal) first.minimal
      second.minimal
  | property reference => referencePhrase reference

/-- A formula with parentheses around each operand. -/
def full : Formula → Phrase
  | constant value => .number value.toInt.repr
  | unary op operand => .prefixed op (.group operand.full)
  | binary (.between op) left right => .between op (.group left.full) (.group right.full)
  | binary (.call fn) left right => .call fn left.full right.full
  | conditional condition first second =>
    .conditional (.group condition.full) (.group first.full) (.group second.full)
  | property reference => referencePhrase reference

end Formula

end TableFormula
