import TableFormula.Phrase.Basic

/-!
A phrase is well grouped if reading its tokens from left to right, each operator taking what binds
tightly enough, groups them as the phrase does: nothing that stands bare would have been taken by
another operator.
-/

namespace TableFormula.Phrase

def IsConditional : Phrase → Prop
  | conditional _ _ _ => True
  | _ => False

instance : DecidablePred IsConditional := fun phrase => by
  cases phrase <;> unfold IsConditional <;> infer_instance

/-- Whether a phrase can stand bare in a place of the given level. -/
def Fits (level : Nat) : Phrase → Prop
  | between op _ _ => level ≤ op.precedence
  | conditional _ _ _ => False
  | _ => True

instance (level : Nat) : DecidablePred (Fits level) := fun phrase => by
  cases phrase <;> unfold Fits <;> infer_instance

/-- The levels of the places at the right end of a phrase, outside parentheses: an operator behind
the phrase is taken by the first of them that it reaches. -/
def edgeLevels : Phrase → List Nat
  | prefixed op operand => op.precedence :: operand.edgeLevels
  | between op _ right => op.operandLevel :: right.edgeLevels
  | conditional _ _ second => Conditional.operandLevel :: second.edgeLevels
  | _ => []

/-- Whether a phrase can stand bare to the left of an operator of the given precedence. -/
def Precedes (precedence : Nat) (phrase : Phrase) : Prop :=
  ¬phrase.IsConditional ∧ ∀ level ∈ phrase.edgeLevels, precedence < level

instance (precedence : Nat) : DecidablePred (Precedes precedence) := fun _ =>
  inferInstanceAs (Decidable (_ ∧ _))

def WellGrouped : Phrase → Prop
  | number _ | bare _ | reference _ _ _ => True
  | call _ first second => first.WellGrouped ∧ second.WellGrouped
  | group inner => inner.WellGrouped
  | prefixed op operand => operand.Fits op.precedence ∧ operand.WellGrouped
  | between op left right =>
    left.Precedes op.precedence ∧ right.Fits op.operandLevel ∧ left.WellGrouped ∧
      right.WellGrouped
  | conditional condition first second =>
    ¬condition.IsConditional ∧ condition.WellGrouped ∧ first.WellGrouped ∧ second.WellGrouped

instance decidableWellGrouped : DecidablePred WellGrouped
  | number _ | bare _ | reference _ _ _ => .isTrue trivial
  | call _ first second =>
    have := decidableWellGrouped first
    have := decidableWellGrouped second
    inferInstanceAs (Decidable (_ ∧ _))
  | group inner => decidableWellGrouped inner
  | prefixed op operand =>
    have := decidableWellGrouped operand
    inferInstanceAs (Decidable (operand.Fits op.precedence ∧ _))
  | between op left right =>
    have := decidableWellGrouped left
    have := decidableWellGrouped right
    inferInstanceAs (Decidable (left.Precedes op.precedence ∧ right.Fits op.operandLevel ∧ _ ∧ _))
  | conditional condition first second =>
    have := decidableWellGrouped condition
    have := decidableWellGrouped first
    have := decidableWellGrouped second
    inferInstanceAs (Decidable (¬condition.IsConditional ∧ _ ∧ _ ∧ _))

end TableFormula.Phrase
