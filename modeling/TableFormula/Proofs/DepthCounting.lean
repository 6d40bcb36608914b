import TableFormula.Grammar.DepthCounter
import TableFormula.Proofs.ReadingMonads

namespace TableFormula

open TokenSource

variable {σ : Type} {options : Options}

/-- How many formulas are open once a step begins one, which it does within the limit only. -/
def ReadStep.reach (options : Options) : ReadStep σ → Nat
  | call depth _ => if options.maxDepth ≤ depth then 0 else depth + 1
  | _ => 0

def reached (options : Options) : List (ReadStep σ) → Nat
  | [] => 0
  | step :: steps => max (step.reach options) (reached options steps)

theorem reached_append (steps later : List (ReadStep σ)) :
    reached options (steps ++ later) = max (reached options steps) (reached options later) := by
  induction steps with
  | nil => exact (Nat.zero_max _).symm
  | cons step steps ih => rw [List.cons_append, reached, ih, reached, Nat.max_assoc]

theorem ReadStep.reach_le (step : ReadStep σ) : step.reach options ≤ options.maxDepth := by
  cases step with
  | call depth source =>
    rw [reach]
    split
    · exact Nat.zero_le _
    · omega
  | take | turn => exact Nat.zero_le _

theorem reached_le (steps : List (ReadStep σ)) : reached options steps ≤ options.maxDepth := by
  induction steps with
  | nil => exact Nat.zero_le _
  | cons step steps ih => exact Nat.max_le.mpr ⟨step.reach_le, ih⟩

namespace DepthCounter

/-- The counter back at its depth, after it stood as high as the height says. -/
def raised (counter : DepthCounter) (height : Nat) : DepthCounter :=
  { counter with deepest := max counter.deepest height }

theorem mk_raised_zero {α : Type} (result : α) (counter : DepthCounter) :
    (result, counter) = (result, counter.raised 0) :=
  congrArg (fun deepest => (result, mk counter.depth deepest)) (Nat.max_zero _).symm

theorem raised_raised (counter : DepthCounter) (first second : Nat) :
    (counter.raised first).raised second = counter.raised (max first second) :=
  congrArg (mk counter.depth) (Nat.max_assoc ..)

theorem leave_raised_enter (counter : DepthCounter) (height : Nat) :
    (counter.enter.raised height).leave = counter.raised (max (counter.depth + 1) height) :=
  congrArg (mk counter.depth) (Nat.max_assoc ..)

end DepthCounter

namespace Counted

theorem bind_apply {α β : Type} (counted : Counted α) (f : α → Counted β) (before : DepthCounter) :
    (counted >>= f) before =
      match counted before with
      | (.ok a, after) => f a after
      | (.error fault, after) => (.error fault, after) := by
  show (ExceptT.bindCont f (counted before).1 (counted before).2 : _ × DepthCounter) = _
  obtain ⟨result, after⟩ := counted before
  cases result <;> rfl

/-- Whether a counted reading ends as a recorded one, with the counter raised as high as the steps
reach. -/
def Counts (options : Options) {α : Type} (counted : Counted α) (recorded : Recorded σ α) : Prop :=
  ∀ before : DepthCounter, counted before =
    (recorded.result before.depth, before.raised (reached options (recorded.steps before.depth)))

theorem Counts.bind {α β : Type} {counted : Counted α} {recorded : Recorded σ α}
    {f : α → Counted β} {g : α → Recorded σ β} (counts : Counts options counted recorded)
    (later : ∀ a, Counts options (f a) (g a)) : Counts options (counted >>= f) (recorded >>= g) := by
  intro before
  rw [bind_apply, counts, Recorded.result_bind, Recorded.steps_bind, reached_append,
    ← DepthCounter.raised_raised]
  cases recorded.result before.depth with
  | error fault => exact DepthCounter.mk_raised_zero ..
  | ok a => exact later a _

theorem Counts.nested {α : Type} {counted : Counted α} {recorded : Recorded σ α} (source : σ)
    (counts : Counts options counted recorded) :
    Counts options (ReadingMonad.nested options source counted)
      (ReadingMonad.nested options source recorded) := by
  intro before
  rw [Recorded.result_nested, Recorded.steps_nested, reached, ReadStep.reach]
  show (if options.maxDepth ≤ before.depth then _ else _) = _
  split
  · exact DepthCounter.mk_raised_zero ..
  · show ((counted before.enter).1, (counted before.enter).2.leave) = _
    rw [counts, DepthCounter.leave_raised_enter]
    rfl

def counting (options : Options) : ReadingRelation σ options Counted (Recorded σ) where
  rel := Counts options
  lift result before := before.mk_raised_zero result
  bind := Counts.bind
  take _ before := before.mk_raised_zero (Except.ok ())
  turn _ _ before := before.mk_raised_zero (Except.ok ())
  nested := Counts.nested

end Counted

variable [TokenSource σ] (options) (owner : Owner) (least : Nat) (source : σ)
  (before : DepthCounter)

/-- The result is that of the reader that is told its depth, and the counter is back at its depth, raised
as high as the steps reach. -/
theorem exprCounting_eq : exprCounting options owner least source before =
    (expr options owner before.depth least source,
      before.raised (reached options (exprSteps options owner before.depth least source))) := by
  rw [← Recorded.result_exprIn]
  exact (Counted.counting options).exprIn owner least source before

/-- A formula that was read is counted itself. -/
theorem lt_deepest_exprCounting {parsed : Parsed σ} {after : DepthCounter}
    (read : exprCounting options owner least source before = (.ok parsed, after)) :
    before.depth < after.deepest := by
  rw [exprCounting_eq] at read
  obtain ⟨result, rfl⟩ := Prod.mk.inj read
  have shallow : ¬options.maxDepth ≤ before.depth := by
    intro deep
    rw [expr_eq, if_pos deep] at result
    cases result
  rw [exprSteps, exprIn_eq, Recorded.steps_nested, reached, ReadStep.reach, if_neg shallow]
  exact Nat.le_trans (Nat.le_max_left ..) (Nat.le_max_right ..)

end TableFormula
