import TableFormula.Evaluation.Context

/-!
What stands around a place in a formula either passes it by or goes on with the value of what stands
there.
-/

namespace TableFormula

open Formula

theorem andThen_ok (run : Except EvalError Int64 × RandomWords) :
    andThen run (fun value source => (.ok value, source)) = run := by
  rcases run with ⟨fault | value, source⟩ <;> rfl

theorem andThen_assoc (run : Except EvalError Int64 × RandomWords)
    (next later : Int64 → RandomWords → Except EvalError Int64 × RandomWords) :
    andThen (andThen run next) later =
      andThen run fun value source => andThen (next value source) later := by
  rcases run with ⟨fault | value, source⟩ <;> rfl

theorem eval_of_nonzero {condition : Formula} {source : RandomWords} {value : Int64}
    (evaluated : (condition.eval source).1 = .ok value) (nonzero : value ≠ 0)
    (first second : Formula) :
    (conditional condition first second).eval source = first.eval (condition.eval source).2 := by
  rw [eval_conditional]
  generalize condition.eval source = run at evaluated ⊢
  obtain ⟨_, after⟩ := run
  cases evaluated
  simp only [andThen, Branch.select, if_neg nonzero]

theorem eval_of_zero {condition : Formula} {source : RandomWords}
    (evaluated : (condition.eval source).1 = .ok 0) (first second : Formula) :
    (conditional condition first second).eval source = second.eval (condition.eval source).2 := by
  rw [eval_conditional]
  generalize condition.eval source = run at evaluated ⊢
  obtain ⟨_, after⟩ := run
  cases evaluated
  rfl

/-- A formula with a fault that carries the dividend. -/
def Formula.overZero (dividend : Int64) : Formula :=
  .binary (.between .divide) (.constant dividend) (.constant 0)

theorem eval_overZero (dividend : Int64) (source : RandomWords) :
    (overZero dividend).eval source = (.error (.divisionByZero dividend), source) := rfl

/-! ### Runs with a hole -/

/-- Whether runs, one for each formula in a hole, evaluate the formula with the source and go on with
its value. Without a source, they do not come to the hole and are all the same. -/
def RunsThrough : Option RandomWords → (Formula → Except EvalError Int64 × RandomWords) → Prop
  | some source, runs => ∃ next, ∀ formula, runs formula = andThen (formula.eval source) next
  | none, runs => ∃ run, ∀ formula, runs formula = run

namespace RunsThrough

variable {reached : Option RandomWords}
  {runs : Formula → Except EvalError Int64 × RandomWords}

theorem hole (source : RandomWords) :
    RunsThrough (some source) fun formula => formula.eval source :=
  ⟨fun value source => (.ok value, source), fun _ => (andThen_ok _).symm⟩

theorem past (run : Except EvalError Int64 × RandomWords) : RunsThrough none fun _ => run :=
  ⟨run, fun _ => rfl⟩

theorem andThen (through : RunsThrough reached runs)
    (later : Int64 → RandomWords → Except EvalError Int64 × RandomWords) :
    RunsThrough reached fun formula => Formula.andThen (runs formula) later := by
  cases reached with
  | none =>
    obtain ⟨run, same⟩ := through
    exact ⟨Formula.andThen run later, fun formula =>
      congrArg (Formula.andThen · later) (same formula)⟩
  | some source =>
    obtain ⟨next, goesOn⟩ := through
    refine ⟨fun value source => Formula.andThen (next value source) later, fun formula => ?_⟩
    exact (congrArg (Formula.andThen · later) (goesOn formula)).trans (andThen_assoc _ next later)

theorem congr (through : RunsThrough reached runs) {a b : Formula}
    (same : ∀ source, reached = some source → a.eval source = b.eval source) : runs a = runs b := by
  cases reached with
  | none =>
    obtain ⟨run, all⟩ := through
    rw [all, all]
  | some source =>
    obtain ⟨next, goesOn⟩ := through
    rw [goesOn, goesOn, same source rfl]

/-- A fault in the hole ends the run. -/
theorem of_fault {source after : RandomWords} (through : RunsThrough (some source) runs)
    {formula : Formula} {fault : EvalError} (failed : formula.eval source = (.error fault, after)) :
    runs formula = (.error fault, after) := by
  obtain ⟨next, goesOn⟩ := through
  rw [goesOn, failed, Formula.andThen]

end RunsThrough

namespace Context

theorem runsThrough (context : Context) (source : RandomWords) :
    RunsThrough (context.reach source) fun formula => (context.fill formula).eval source := by
  induction context generalizing source with
  | hole => exact .hole source
  | operand op inner ih =>
    simp only [fill, eval_unary, reach]
    exact (ih source).andThen _
  | left op inner right ih =>
    simp only [fill, eval_binary, reach]
    exact (ih source).andThen _
  | right op left inner ih =>
    simp only [fill, eval_binary, reach]
    rcases left.eval source with ⟨fault | value, between⟩
    · exact .past _
    · exact (ih between).andThen _
  | condition inner first second ih =>
    simp only [fill, eval_conditional, reach]
    exact (ih source).andThen _
  | first condition inner second ih =>
    simp only [fill, eval_conditional, reach]
    rcases condition.eval source with ⟨fault | value, between⟩
    · exact .past _
    · by_cases zero : value = 0
      · simp only [Formula.andThen, Branch.select, if_pos zero]
        exact .past _
      · simp only [Formula.andThen, Branch.select, if_neg zero]
        exact ih between
  | second condition first inner ih =>
    simp only [fill, eval_conditional, reach]
    rcases condition.eval source with ⟨fault | value, between⟩
    · exact .past _
    · by_cases zero : value = 0
      · simp only [Formula.andThen, Branch.select, if_pos zero]
        exact ih between
      · simp only [Formula.andThen, Branch.select, if_neg zero]
        exact .past _

/-- A hole is reached exactly if a fault that is put there is the outcome. -/
theorem reach_eq_some_iff {context : Context} {source reached : RandomWords} :
    context.reach source = some reached ↔ ∀ dividend : Int64,
      (context.fill (overZero dividend)).eval source =
        (.error (.divisionByZero dividend), reached) := by
  have through := context.runsThrough source
  constructor
  · intro reaches dividend
    rw [reaches] at through
    exact through.of_fault (eval_overZero dividend reached)
  · intro failed
    cases reaches : context.reach source with
    | none =>
      rw [reaches] at through
      have same := through.congr (a := overZero 0) (b := overZero 1) fun _ never => nomatch never
      rw [failed, failed] at same
      cases same
    | some other =>
      rw [reaches] at through
      have same := (through.of_fault (eval_overZero 0 other)).symm.trans (failed 0)
      exact congrArg some (Prod.mk.inj same).2

end Context

/-- A branch that is not selected has no effect, in a conditional at any place of a formula: where the
place is not reached, or the condition has there a value that selects the other branch, any formula
can stand in the branch. Reaching a place means that a fault there would be the outcome. -/
theorem eval_of_unselected (context : Context) (condition first second : Formula)
    (source : RandomWords) :
    (∀ reached, context.reach source = some reached ↔ ∀ dividend : Int64,
      (context.fill (.binary (.between .divide) (.constant dividend) (.constant 0))).eval source =
        (.error (.divisionByZero dividend), reached)) ∧
    ((∀ reached, context.reach source = some reached →
        ∃ value, (condition.eval reached).1 = .ok value ∧ value ≠ 0) →
      ∀ other, (context.fill (.conditional condition first other)).eval source =
        (context.fill (.conditional condition first second)).eval source) ∧
    ((∀ reached, context.reach source = some reached → (condition.eval reached).1 = .ok 0) →
      ∀ other, (context.fill (.conditional condition other second)).eval source =
        (context.fill (.conditional condition first second)).eval source) := by
  have through := context.runsThrough source
  refine ⟨fun _ => Context.reach_eq_some_iff, fun nonzero other => ?_, fun zero other => ?_⟩
  · refine through.congr fun reached reaches => ?_
    obtain ⟨value, evaluated, nonzero⟩ := nonzero reached reaches
    rw [eval_of_nonzero evaluated nonzero, eval_of_nonzero evaluated nonzero]
  · refine through.congr fun reached reaches => ?_
    rw [eval_of_zero (zero reached reaches), eval_of_zero (zero reached reaches)]

/-- In `rand(2, 3) + (1 ? 5 : 7 / 0)` and `rand(2, 3) + (0 ? 7 / 0 : 5)` a zero could stand in place of
the division. -/
theorem eval_of_unselected_quotient :
    (Formula.binary (.between .add) (.binary (.call .rand) (.constant 2) (.constant 3))
      (.conditional (.constant 1) (.constant 5)
        (.binary (.between .divide) (.constant 7) (.constant 0)))).eval (.ofList [0]) =
      (.ok 7, (RandomWords.ofList [0]).advance 1) ∧
    (Formula.binary (.between .add) (.binary (.call .rand) (.constant 2) (.constant 3))
      (.conditional (.constant 0) (.binary (.between .divide) (.constant 7) (.constant 0))
        (.constant 5))).eval (.ofList [0]) =
      (.ok 7, (RandomWords.ofList [0]).advance 1) := by
  let context : Context :=
    .right (.between .add) (.binary (.call .rand) (.constant 2) (.constant 3)) .hole
  obtain ⟨-, second, -⟩ :=
    eval_of_unselected context (.constant 1) (.constant 5) (.constant 0) (.ofList [0])
  obtain ⟨-, -, first⟩ :=
    eval_of_unselected context (.constant 0) (.constant 0) (.constant 5) (.ofList [0])
  exact ⟨(second (fun _ _ => ⟨1, rfl, by decide⟩) _).trans rfl, (first (fun _ _ => rfl) _).trans rfl⟩

end TableFormula
