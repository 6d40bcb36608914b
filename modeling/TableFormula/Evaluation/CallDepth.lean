import TableFormula.Evaluation.Eval

/-!
A recursion over a formula calls itself on the parts of the formula, so that its calls are nested no
deeper than the tree is high. Evaluation skips some parts; taking a tree apart goes to every part.
-/

namespace TableFormula.Formula

/-- How many evaluations are nested in each other at most when a formula is evaluated. -/
def evalDepth : Formula → RandomWords → Nat
  | constant _, _ | property _, _ => 1
  | unary _ operand, source => operand.evalDepth source + 1
  | binary _ left right, source =>
    match left.eval source with
    | (.error _, _) => left.evalDepth source + 1
    | (.ok _, later) => max (left.evalDepth source) (right.evalDepth later) + 1
  | conditional condition first second, source =>
    match condition.eval source with
    | (.error _, _) => condition.evalDepth source + 1
    | (.ok value, later) =>
      match Branch.select value with
      | .first => max (condition.evalDepth source) (first.evalDepth later) + 1
      | .second => max (condition.evalDepth source) (second.evalDepth later) + 1

theorem evalDepth_le_height (formula : Formula) (source : RandomWords) :
    formula.evalDepth source ≤ formula.height := by
  induction formula generalizing source with
  | constant | property => exact Nat.le_refl 1
  | unary op operand ih => exact Nat.succ_le_succ (ih source)
  | binary op left right ihLeft ihRight =>
    have leftLow := ihLeft source
    simp only [evalDepth, height]
    split
    · omega
    · rename_i later _
      have rightLow := ihRight later
      omega
  | conditional condition first second ihCondition ihFirst ihSecond =>
    have conditionLow := ihCondition source
    simp only [evalDepth, height]
    split
    · omega
    · rename_i later _
      have firstLow := ihFirst later
      have secondLow := ihSecond later
      split <;> omega

/-- The formulas that a formula is made of. -/
def parts : Formula → List Formula
  | constant _ | property _ => []
  | unary _ operand => [operand]
  | binary _ left right => [left, right]
  | conditional condition first second => [condition, first, second]

theorem height_lt_of_mem_parts {formula part : Formula} (member : part ∈ formula.parts) :
    part.height < formula.height := by
  cases formula with
  | constant | property => cases member
  | unary op operand =>
    obtain rfl := List.mem_singleton.mp member
    exact Nat.lt_succ_self _
  | binary op left right =>
    simp only [parts, List.mem_cons, List.not_mem_nil, or_false] at member
    rcases member with rfl | rfl <;> simp only [height] <;> omega
  | conditional condition first second =>
    simp only [parts, List.mem_cons, List.not_mem_nil, or_false] at member
    rcases member with rfl | rfl | rfl <;> simp only [height] <;> omega

/-- The calls of a recursion from a formula to its parts, each with the number of calls that are under
way then. -/
inductive NestedCall (root : Formula) : Nat → Formula → Prop where
  | root : NestedCall root 1 root
  | part {depth : Nat} {formula part : Formula} :
      NestedCall root depth formula → part ∈ formula.parts → NestedCall root (depth + 1) part

theorem NestedCall.depth_le {root formula : Formula} {depth : Nat}
    (call : NestedCall root depth formula) : depth ≤ root.height := by
  -- What is left below a call shrinks as the calls get deeper.
  have room : depth + formula.height ≤ root.height + 1 := by
    induction call with
    | root => omega
    | part _ member ih =>
      have := height_lt_of_mem_parts member
      omega
  have := formula.height_pos
  omega

end TableFormula.Formula
