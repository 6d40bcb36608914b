import TableFormula.Grammar.Reader

/-! A counter of depth, which must come down wherever a formula ends, be it read or at fault. -/

namespace TableFormula

structure DepthCounter where
  /-- How many formulas are begun and not ended. -/
  depth : Nat := 0
  /-- The greatest depth so far. -/
  deepest : Nat := 0
  deriving DecidableEq

namespace DepthCounter

def enter (counter : DepthCounter) : DepthCounter :=
  { depth := counter.depth + 1, deepest := max counter.deepest (counter.depth + 1) }

def leave (counter : DepthCounter) : DepthCounter := { counter with depth := counter.depth - 1 }

end DepthCounter

/-- A reading that shares the counter, and leaves one behind a fault too. -/
abbrev Counted := ExceptT ParseError (StateM DepthCounter)

instance {σ : Type} : ReadingMonad σ Counted where
  nested options _ inside counter :=
    if options.maxDepth ≤ counter.depth then (.error (.tooDeep options.maxDepth), counter)
    else
      let (result, after) := inside counter.enter
      (result, after.leave)
  take _ := pure ()
  turn _ _ := pure ()

/-- Reads a formula and counts its depth from where the counter stands. -/
def exprCounting {σ : Type} [TokenSource σ] (options : Options) (owner : Owner) (least : Nat)
    (source : σ) (counter : DepthCounter) : Except ParseError (Parsed σ) × DepthCounter :=
  exprIn Counted options owner least source counter

end TableFormula
