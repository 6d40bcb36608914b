import TableFormula.Grammar.Basic

/-!
The leaves of a formula are its numbers and properties. They can be found in its tokens without any
grammar, each by the tokens beside it.
-/

namespace TableFormula

inductive Leaf where
  | constant (value : Int)
  | property (reference : Reference)
  deriving DecidableEq

def Leaf.reference? : Leaf → Option Reference
  | constant _ => none
  | property reference => some reference

namespace Formula

def leaves : Formula → List Leaf
  | constant value => [.constant value.toInt]
  | unary _ operand => operand.leaves
  | binary _ left right => left.leaves ++ right.leaves
  | conditional condition first second => condition.leaves ++ first.leaves ++ second.leaves
  | property reference => [.property reference]

theorem references_eq_filterMap_leaves (formula : Formula) :
    formula.references = formula.leaves.filterMap Leaf.reference? := by
  induction formula with
  | constant | property => rfl
  | unary op operand ih => exact ih
  | binary op left right ihLeft ihRight =>
    rw [references, leaves, List.filterMap_append, ihLeft, ihRight]
  | conditional condition first second ihCondition ihFirst ihSecond =>
    rw [references, leaves, List.filterMap_append, List.filterMap_append, ihCondition, ihFirst,
      ihSecond]

end Formula

/-- The property that is named by the tokens behind its kind. -/
def referenceOf? (kind : String) : List Token → Option Reference
  | .symbol "(" :: .string name :: .symbol "." :: .name qualifier :: .symbol ")" :: _ =>
    some ⟨kind, name, qualifier⟩
  | _ => none

/-- The leaf that a token begins. A name behind a dot belongs to the kind before it. -/
def leafOf? (owner : Owner) (afterDot : Bool) (token : Token) (behind : List Token) : Option Leaf :=
  match token with
  | .number digits => some (.constant (Nat.ofDigitChars 10 digits.toList 0))
  | .name name =>
    if isPropertyKind name then (referenceOf? name behind).map .property
    else if (Builtin.ofSymbol? name).isSome || afterDot then none
    else some (.property (owner.reference name))
  | _ => none

def leavesOf (owner : Owner) (afterDot : Bool) : List Token → List Leaf
  | [] => []
  | token :: behind =>
    (leafOf? owner afterDot token behind).toList ++ leavesOf owner (token.isSymbol ".") behind

section

variable {owner : Owner} {afterDot : Bool} {behind : List Token}

theorem leavesOf_symbol {text : String} (noDot : text ≠ ".") :
    leavesOf owner afterDot (.symbol text :: behind) = leavesOf owner false behind := by
  rw [leavesOf, Token.isSymbol_of_ne noDot]
  rfl

theorem leavesOf_number (digits : String) : leavesOf owner afterDot (.number digits :: behind) =
    .constant (Nat.ofDigitChars 10 digits.toList 0) :: leavesOf owner false behind := rfl

theorem leavesOf_bare {name : String} (free : isReserved name = false) :
    leavesOf owner false (.name name :: behind) =
      .property (owner.reference name) :: leavesOf owner false behind := by
  rw [isReserved, Bool.or_eq_false_iff] at free
  simp only [leavesOf, leafOf?, free.1, free.2]
  rfl

theorem leavesOf_builtin {name : String} (kind : isPropertyKind name = false)
    (builtin : (Builtin.ofSymbol? name).isSome = true) :
    leavesOf owner afterDot (.name name :: behind) = leavesOf owner false behind := by
  simp only [leavesOf, leafOf?, kind, builtin]
  rfl

theorem leavesOf_reference {kind name qualifier : String} (found : isPropertyKind kind = true) :
    leavesOf owner afterDot (.name kind :: .symbol "(" :: .string name :: .symbol "." ::
        .name qualifier :: .symbol ")" :: behind) =
      .property ⟨kind, name, qualifier⟩ :: leavesOf owner false behind := by
  have noLeaf : leafOf? owner true (.name qualifier) (.symbol ")" :: behind) = none := by
    rw [leafOf?, Bool.or_true, if_pos rfl]
    exact ite_self none
  have dotted : leavesOf owner true (.name qualifier :: .symbol ")" :: behind) =
      leavesOf owner false behind := by
    rw [leavesOf, noLeaf]
    rfl
  have first : leafOf? owner afterDot (.name kind) (.symbol "(" :: .string name :: .symbol "." ::
      .name qualifier :: .symbol ")" :: behind) = some (.property ⟨kind, name, qualifier⟩) :=
    if_pos found
  rw [leavesOf, first, ← dotted]
  rfl

end

end TableFormula
