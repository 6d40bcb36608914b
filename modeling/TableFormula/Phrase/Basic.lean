import TableFormula.Grammar.Basic

/-!
A phrase is a formula as it is written, with its parentheses and with the digits of its numbers.
`tokens` writes it; `formula` is the tree that it stands for, in which parentheses leave no trace.
-/

namespace TableFormula

inductive Phrase where
  | number (digits : String)
  | bare (name : String)
  | reference (kind name qualifier : String)
  | call (fn : Builtin) (first second : Phrase)
  | group (inner : Phrase)
  | prefixed (op : PrefixOp) (operand : Phrase)
  | between (op : InfixOp) (left right : Phrase)
  | conditional (condition first second : Phrase)
  deriving DecidableEq

namespace Phrase

def tokens : Phrase → List Token
  | number digits => [.number digits]
  | bare name => [.name name]
  | reference kind name qualifier =>
    [.name kind, .symbol "(", .string name, .symbol ".", .name qualifier, .symbol ")"]
  | call fn first second =>
    .name fn.symbol :: .symbol "(" ::
      (first.tokens ++ .symbol "," :: (second.tokens ++ [.symbol ")"]))
  | group inner => .symbol "(" :: (inner.tokens ++ [.symbol ")"])
  | prefixed op operand => .symbol op.symbol :: operand.tokens
  | between op left right => left.tokens ++ .symbol op.symbol :: right.tokens
  | conditional condition first second =>
    condition.tokens ++ .symbol Conditional.symbol ::
      (first.tokens ++ .symbol Conditional.marker :: second.tokens)

/-- Whether each number fits in a word and each name may stand where it does. -/
def Valid : Phrase → Prop
  | number digits => (wordOfDigits? digits).isSome = true
  | bare name => isReserved name = false
  | reference kind _ _ => isPropertyKind kind = true
  | call _ first second => first.Valid ∧ second.Valid
  | group inner => inner.Valid
  | prefixed _ operand => operand.Valid
  | between _ left right => left.Valid ∧ right.Valid
  | conditional condition first second => condition.Valid ∧ first.Valid ∧ second.Valid

instance decidableValid : DecidablePred Valid
  | number _ | bare _ | reference _ _ _ => inferInstanceAs (Decidable (_ = _))
  | call _ first second | between _ first second =>
    have := decidableValid first
    have := decidableValid second
    inferInstanceAs (Decidable (_ ∧ _))
  | group inner | prefixed _ inner => decidableValid inner
  | conditional condition first second =>
    have := decidableValid condition
    have := decidableValid first
    have := decidableValid second
    inferInstanceAs (Decidable (_ ∧ _ ∧ _))

def formula (owner : Owner) : Phrase → Formula
  | number digits => .constant ((wordOfDigits? digits).getD 0)
  | bare name => .property (owner.reference name)
  | reference kind name qualifier => .property ⟨kind, name, qualifier⟩
  | call fn first second => .binary (.call fn) (first.formula owner) (second.formula owner)
  | group inner => inner.formula owner
  | prefixed op operand => .unary op (operand.formula owner)
  | between op left right => .binary (.between op) (left.formula owner) (right.formula owner)
  | conditional condition first second =>
    .conditional (condition.formula owner) (first.formula owner) (second.formula owner)

/-- How deep a phrase is nested: parentheses, calls, prefix operators, right operands and branches
lie one level below what holds them. -/
def nest : Phrase → Nat
  | number _ | bare _ | reference _ _ _ => 1
  | call _ first second => 1 + max first.nest second.nest
  | group inner => 1 + inner.nest
  | prefixed _ operand => 1 + operand.nest
  | between _ left right => max left.nest (1 + right.nest)
  | conditional condition first second =>
    max condition.nest (max (1 + first.nest) (1 + second.nest))

theorem tokens_ne_nil (phrase : Phrase) : phrase.tokens ≠ [] := by
  cases phrase <;> simp [tokens]

theorem nest_pos (phrase : Phrase) : 0 < phrase.nest := by
  induction phrase <;> simp only [nest] <;> omega

end Phrase

end TableFormula
