import TableFormula.Evaluation.Eval

namespace TableFormula

open RandomWords

section

variable {α β : Type} {run : RandomWords → α × RandomWords}

/-- On each source that goes on with the words, the run draws them and no others, and has the
result. -/
def Consumes (run : RandomWords → α × RandomWords) (words : List UInt64) (result : α) : Prop :=
  ∀ source : RandomWords, source.upcoming words.length = words →
    run source = (result, source.advance words.length)

theorem Consumes.nothing (result : α) : Consumes (fun source => (result, source)) [] result :=
  fun _ _ => rfl

theorem Consumes.bind {words more : List UInt64} {first : α} {result : β}
    (consumes : Consumes run words first) (next : α → RandomWords → β × RandomWords)
    (goesOn : Consumes (next first) more result) :
    Consumes (fun source => next (run source).1 (run source).2) (words ++ more) result := by
  intro source same
  obtain ⟨front, back⟩ := upcoming_append_iff.mp same
  simp only [consumes source front, goesOn _ back, advance_advance, List.length_append]

/-- A run is determined by the words that it draws, of which there are at most `limit`. -/
def DrawsAtMost (limit : Nat) (run : RandomWords → α × RandomWords) : Prop :=
  ∀ source : RandomWords, ∃ words : List UInt64, words.length ≤ limit ∧
    source.upcoming words.length = words ∧ Consumes run words (run source).1

namespace DrawsAtMost

theorem nothing (result : α) : DrawsAtMost 0 fun source => (result, source) :=
  fun _ => ⟨[], Nat.le_refl 0, rfl, .nothing result⟩

theorem mono {m n : Nat} (draws : DrawsAtMost m run) (le : m ≤ n) : DrawsAtMost n run := by
  intro source
  obtain ⟨words, few, same, consumes⟩ := draws source
  exact ⟨words, Nat.le_trans few le, same, consumes⟩

theorem bind {m n : Nat} (draws : DrawsAtMost m run) (next : α → RandomWords → β × RandomWords)
    (goesOn : ∀ first, DrawsAtMost n (next first)) :
    DrawsAtMost (m + n) fun source => next (run source).1 (run source).2 := by
  intro source
  obtain ⟨words, few, same, consumes⟩ := draws source
  obtain ⟨more, fewMore, sameMore, consumesMore⟩ :=
    goesOn (run source).1 (source.advance words.length)
  refine ⟨words ++ more, ?_, upcoming_append_iff.mpr ⟨same, sameMore⟩, ?_⟩
  · rw [List.length_append]
    omega
  · have after : (run source).2 = source.advance words.length :=
      congrArg Prod.snd (consumes source same)
    rw [← after] at consumesMore
    exact consumes.bind next consumesMore

theorem exists_drawn {limit : Nat} (draws : DrawsAtMost limit run) (source : RandomWords) :
    ∃ drawn ≤ limit, (run source).2 = source.advance drawn ∧
      ∀ other : RandomWords, other.upcoming drawn = source.upcoming drawn →
        run other = ((run source).1, other.advance drawn) := by
  obtain ⟨words, few, same, consumes⟩ := draws source
  refine ⟨words.length, few, congrArg Prod.snd (consumes source same), ?_⟩
  intro other alike
  exact consumes other (alike.trans same)

end DrawsAtMost

end

section

variable {run : RandomWords → Except EvalError Int64 × RandomWords}
  {next : Int64 → RandomWords → Except EvalError Int64 × RandomWords}

theorem Consumes.rand (m n : Int64) (word : UInt64) :
    Consumes ((BinaryOp.call .rand).apply m n) [word] (.ok (if heads word then m else n)) := by
  intro source same
  have drawn : source.word source.drawn = word := by simpa [upcoming] using same
  simp only [BinaryOp.apply, Builtin.apply, draw_eq, drawn, List.length_singleton]

theorem Consumes.andThen {words more : List UInt64} {value : Int64}
    {result : Except EvalError Int64} (consumes : Consumes run words (.ok value))
    (goesOn : Consumes (next value) more result) :
    Consumes (fun source => Formula.andThen (run source) next) (words ++ more) result :=
  consumes.bind (fun result source => Formula.andThen (result, source) next) goesOn

theorem Consumes.andThen_fault {words : List UInt64} {fault : EvalError}
    (consumes : Consumes run words (.error fault)) :
    Consumes (fun source => Formula.andThen (run source) next) words (.error fault) := by
  intro source same
  simp only [consumes source same, Formula.andThen]

theorem DrawsAtMost.andThen {m n : Nat} (draws : DrawsAtMost m run)
    (goesOn : ∀ value, DrawsAtMost n (next value)) :
    DrawsAtMost (m + n) fun source => Formula.andThen (run source) next := by
  apply draws.bind fun result source => Formula.andThen (result, source) next
  intro result
  cases result with
  | error fault => exact (nothing (Except.error fault)).mono (Nat.zero_le n)
  | ok value => exact goesOn value

theorem BinaryOp.draws_apply (op : BinaryOp) (m n : Int64) :
    DrawsAtMost (if op = .call .rand then 1 else 0) (op.apply m n) := by
  rcases op with op | fn
  · exact .nothing _
  · cases fn with
    | min | max => exact .nothing _
    | rand =>
      intro source
      exact ⟨[source.word source.drawn], Nat.le_refl 1, by simp [upcoming], .rand m n _⟩

end

namespace Formula

theorem draws_eval (formula : Formula) :
    DrawsAtMost (formula.count (.call .rand)) formula.eval := by
  induction formula with
  | constant | property => exact .nothing _
  | unary op operand ih =>
    rw [funext (eval_unary op operand)]
    exact ih.andThen fun value => .nothing _
  | binary op left right ihLeft ihRight =>
    rw [funext (eval_binary op left right)]
    exact ihLeft.andThen fun m => ihRight.andThen fun n => op.draws_apply m n
  | conditional condition first second ihCondition ihFirst ihSecond =>
    rw [funext (eval_conditional condition first second)]
    refine ihCondition.andThen fun value => ?_
    -- Only one branch is evaluated; the bound counts both.
    cases Branch.select value with
    | first => exact ihFirst.mono (Nat.le_add_right _ _)
    | second => exact ihSecond.mono (Nat.le_add_left _ _)

theorem exists_draws_evalAll (formulas : List Formula) :
    ∃ limit, DrawsAtMost limit (evalAll formulas) := by
  induction formulas with
  | nil => exact ⟨0, .nothing []⟩
  | cons formula formulas ih =>
    obtain ⟨limit, draws⟩ := ih
    have collects : ∀ result, DrawsAtMost limit fun source =>
        (result :: (evalAll formulas source).1, (evalAll formulas source).2) := by
      intro result
      exact draws.bind (fun results source => (result :: results, source)) fun _ => .nothing _
    exact ⟨formula.count (.call .rand) + limit, formula.draws_eval.bind _ collects⟩

/-- Where nothing is skipped and nothing fails, each application of `rand` draws its word. -/
theorem drawn_of_unconditional {formula : Formula} (plain : formula.Unconditional)
    {source after : RandomWords} {value : Int64} (evaluated : formula.eval source = (.ok value, after)) :
    after = source.advance (formula.count (.call .rand)) := by
  induction formula generalizing source after value with
  | constant | property =>
    cases evaluated
    rfl
  | unary op operand ih =>
    rw [eval_unary] at evaluated
    obtain ⟨first, between, here, rest⟩ := andThen_eq_ok.mp evaluated
    cases rest
    exact ih plain here
  | binary op left right ihLeft ihRight =>
    rw [eval_binary] at evaluated
    obtain ⟨m, afterLeft, evaluatedLeft, rest⟩ := andThen_eq_ok.mp evaluated
    obtain ⟨n, afterRight, evaluatedRight, applied⟩ := andThen_eq_ok.mp rest
    have drawn : after = afterRight.advance (if op = .call .rand then 1 else 0) := by
      rw [← op.snd_apply m n afterRight, applied]
    rw [drawn, ihRight plain.2 evaluatedRight, ihLeft plain.1 evaluatedLeft, advance_advance,
      advance_advance, count]
  | conditional => exact plain.elim

end Formula

/-- An evaluation is determined by the words that it draws: on a source that goes on with the same
words it has the same result and draws as many. So it is with evaluations in turn. -/
theorem eval_of_drawn_words :
    (∀ (formula : Formula) (source : RandomWords), ∃ drawn : Nat,
      (formula.eval source).2 = source.advance drawn ∧
      drawn ≤ formula.count (.call .rand) ∧
      (formula.Unconditional → (∃ value, (formula.eval source).1 = .ok value) →
        drawn = formula.count (.call .rand)) ∧
      ∀ other : RandomWords, other.upcoming drawn = source.upcoming drawn →
        formula.eval other = ((formula.eval source).1, other.advance drawn)) ∧
    ∀ (formulas : List Formula) (source : RandomWords), ∃ drawn : Nat,
      (Formula.evalAll formulas source).2 = source.advance drawn ∧
      ∀ other : RandomWords, other.upcoming drawn = source.upcoming drawn →
        Formula.evalAll formulas other =
          ((Formula.evalAll formulas source).1, other.advance drawn) := by
  constructor
  · intro formula source
    obtain ⟨drawn, few, after, determined⟩ := formula.draws_eval.exists_drawn source
    refine ⟨drawn, after, few, ?_, determined⟩
    rintro plain ⟨value, succeeded⟩
    have all := Formula.drawn_of_unconditional plain (Prod.ext succeeded after)
    exact advance_inj all
  · intro formulas source
    obtain ⟨limit, draws⟩ := Formula.exists_draws_evalAll formulas
    obtain ⟨drawn, -, after, determined⟩ := draws.exists_drawn source
    exact ⟨drawn, after, determined⟩

/-- When the first word says so, `rand(0, 1) ? 5 : rand(2, 3)` does not come to its second `rand`, so
that it has one value on all sources that begin with this word. -/
theorem eval_of_drawn_words_one_toss :
    (Formula.conditional (.binary (.call .rand) (.constant 0) (.constant 1)) (.constant 5)
      (.binary (.call .rand) (.constant 2) (.constant 3))).eval (.ofList [0x8000000000000000, 7]) =
      (.ok 5, (RandomWords.ofList [0x8000000000000000, 7]).advance 1) := by
  obtain ⟨drawn, after, -, -, determined⟩ := eval_of_drawn_words.1
    (.conditional (.binary (.call .rand) (.constant 0) (.constant 1)) (.constant 5)
      (.binary (.call .rand) (.constant 2) (.constant 3))) (.ofList [0x8000000000000000])
  obtain rfl : 1 = drawn := advance_inj after
  exact determined (.ofList [0x8000000000000000, 7]) (by decide)

end TableFormula
