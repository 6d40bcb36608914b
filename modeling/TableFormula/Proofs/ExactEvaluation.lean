import TableFormula.Evaluation.Exact

/-! Evaluation where words hold all exact values. Powers are left out, since evaluation rounds them. -/

namespace TableFormula

/-- Arithmetic that wraps around is exact where a word holds the result. -/
theorem toInt_of_wraps {value : Int64} {n : Int} (wraps : value = .ofInt n) (fits : FitsWord n) :
    value.toInt = n := by
  have least : Int64.minValue.toInt = -0x8000000000000000 := by decide
  have greatest : Int64.maxValue.toInt = 0x7FFFFFFFFFFFFFFF := by decide
  obtain ⟨low, high⟩ := fits
  rw [wraps]
  exact Int64.toInt_ofInt_of_le (by omega) (by omega)

theorem toInt_truth (holds : Bool) : (truth holds).toInt = if holds then 1 else 0 := by
  cases holds <;> decide

/-- An exact result and the same one in words. -/
inductive InWords : Except Int Int → Except EvalError Int64 → Prop where
  | value {n : Int} (value : Int64) : value.toInt = n → InWords (.ok n) (.ok value)
  | divisionByZero (dividend : Int64) :
      InWords (.error dividend.toInt) (.error (.divisionByZero dividend))

theorem InWords.exists_value {n : Int} {outcome : Except EvalError Int64}
    (same : InWords (.ok n) outcome) : ∃ value : Int64, value.toInt = n ∧ outcome = .ok value := by
  cases same with
  | value value toInt => exact ⟨value, toInt, rfl⟩

theorem InWords.exists_dividend {n : Int} {outcome : Except EvalError Int64}
    (same : InWords (.error n) outcome) :
    ∃ dividend : Int64, dividend.toInt = n ∧ outcome = .error (.divisionByZero dividend) := by
  cases same with
  | divisionByZero dividend => exact ⟨dividend, rfl, rfl⟩

theorem PrefixOp.toInt_apply (op : PrefixOp) {value : Int64}
    (fits : FitsWord (op.exact value.toInt)) : (op.apply value).toInt = op.exact value.toInt := by
  cases op with
  | plus => rfl
  | negate =>
    refine toInt_of_wraps ?_ fits
    rw [apply, exact, Int64.ofInt_neg, Int64.ofInt_toInt]

theorem divide_inWords {m n : Int64}
    (fits : ∀ k, InfixOp.divide.exact m.toInt n.toInt = .ok k → FitsWord k) :
    InWords (InfixOp.divide.exact m.toInt n.toInt) (divide m n) := by
  by_cases zero : n = 0
  · subst zero
    exact .divisionByZero m
  have nonzero : n.toInt ≠ 0 := fun h => zero (Int64.toInt_inj.mp h)
  have exactly : InfixOp.divide.exact m.toInt n.toInt = .ok (m.toInt.tdiv n.toInt) := if_neg nonzero
  -- No word holds the quotient of the least word and -1.
  have inRange : ¬(m = Int64.minValue ∧ n = -1) := by
    rintro ⟨rfl, rfl⟩
    exact absurd (fits _ exactly).2 (by decide)
  have quotient : divide m n = .ok (m / n) := by
    rw [divide, if_neg zero, if_neg inRange]
  rw [exactly, quotient]
  exact .value _ (toInt_of_divide quotient).2

theorem InfixOp.inWords {op : InfixOp} {m n : Int64} (notPower : op ≠ .power)
    (fits : ∀ k, op.exact m.toInt n.toInt = .ok k → FitsWord k) :
    InWords (op.exact m.toInt n.toInt) (op.apply m n) := by
  cases op with
  | divide => exact divide_inWords fits
  | power => exact absurd rfl notPower
  | add | subtract | multiply =>
    refine .value _ (toInt_of_wraps ?_ (fits _ rfl))
    simp only [Int64.ofInt_add, Int64.ofInt_sub, Int64.ofInt_mul, Int64.ofInt_toInt]
  | equal | notEqual | less | greater | lessEqual | greaterEqual =>
    refine .value _ ((toInt_truth _).trans ?_)
    simp [Int64.toInt_inj, Int64.lt_iff_toInt_lt, Int64.le_iff_toInt_le]

theorem Builtin.exact_toInt (fn : Builtin) (m n : Int64) (source : RandomWords) :
    fn.exact m.toInt n.toInt source =
      ((fn.apply m n source).1.toInt, (fn.apply m n source).2) := by
  cases fn with
  | min | max =>
    simp only [exact, apply, ← Int64.le_iff_toInt_le, apply_ite Int64.toInt]
  | rand => simp only [exact, apply, apply_ite Int64.toInt]

/-- If words hold the values that the run meets, the evaluation has the same result and leaves the
same source. -/
def ExactRun.Describes (run : ExactRun) (outcome : Except EvalError Int64 × RandomWords) : Prop :=
  (∀ n ∈ run.met, FitsWord n) → InWords run.result outcome.1 ∧ run.source = outcome.2

namespace ExactRun.Describes

theorem value {n : Int} {value : Int64} {source : RandomWords}
    (same : FitsWord n → value.toInt = n) :
    (ExactRun.value n source).Describes (.ok value, source) :=
  fun fits => ⟨.value value (same (fits n (List.mem_singleton_self n))), rfl⟩

theorem andThen {run : ExactRun} {outcome : Except EvalError Int64 × RandomWords}
    {next : Int → RandomWords → ExactRun}
    {later : Int64 → RandomWords → Except EvalError Int64 × RandomWords}
    (first : run.Describes outcome)
    (goesOn : ∀ value source, (next value.toInt source).Describes (later value source)) :
    (run.andThen next).Describes (Formula.andThen outcome later) := by
  obtain ⟨met, result, source⟩ := run
  obtain ⟨word, after⟩ := outcome
  cases result with
  | error dividend =>
    intro fits
    obtain ⟨same, rfl⟩ := first fits
    cases same with
    | divisionByZero dividend => exact ⟨.divisionByZero dividend, rfl⟩
  | ok n =>
    intro fits
    obtain ⟨same, rfl⟩ := first fun k member => fits k (List.mem_append_left _ member)
    cases same with
    | value value same =>
      subst same
      exact goesOn value source fun k member => fits k (List.mem_append_right _ member)

theorem binaryOp {op : BinaryOp} (notPower : op ≠ .between .power) (m n : Int64)
    (source : RandomWords) :
    (ExactRun.note [] (op.exact m.toInt n.toInt source)).Describes (op.apply m n source) := by
  cases op with
  | call fn =>
    simp only [BinaryOp.exact, Builtin.exact_toInt]
    exact value fun _ => rfl
  | between op =>
    have inWords := InfixOp.inWords (m := m) (n := n) fun h : op = .power => notPower (h ▸ rfl)
    simp only [BinaryOp.exact, BinaryOp.apply]
    cases found : op.exact m.toInt n.toInt with
    | error dividend =>
      rw [found] at inWords
      exact fun _ => ⟨inWords (by simp), rfl⟩
    | ok k =>
      rw [found] at inWords
      refine fun fits => ⟨inWords fun _ h => ?_, rfl⟩
      cases h
      exact fits k (List.mem_singleton_self k)

end ExactRun.Describes

theorem Formula.exact_describes {formula : Formula} (powerFree : formula.Without (.between .power))
    (source : RandomWords) : (formula.exact source).Describes (formula.eval source) := by
  induction formula generalizing source with
  | constant | property => exact .value fun _ => rfl
  | unary op operand ih =>
    rw [eval_unary]
    exact (ih powerFree source).andThen fun _ _ => .value op.toInt_apply
  | binary op left right ihLeft ihRight =>
    obtain ⟨notPower, leftFree, rightFree⟩ := powerFree
    rw [eval_binary]
    exact (ihLeft leftFree source).andThen fun m _ => (ihRight rightFree _).andThen fun n source =>
      .binaryOp notPower m n source
  | conditional condition first second ihCondition ihFirst ihSecond =>
    obtain ⟨conditionFree, firstFree, secondFree⟩ := powerFree
    rw [eval_conditional]
    refine (ihCondition conditionFree source).andThen fun value source => ?_
    by_cases zero : value = 0
    · subst zero
      exact ihSecond secondFree source
    · have nonzero : value.toInt ≠ 0 := fun h => zero (Int64.toInt_inj.mp h)
      rw [if_neg nonzero, Branch.select, if_neg zero]
      exact ihFirst firstFree source

/-- Evaluation over words is exact until a word does not hold a value that is met: the exact result is
the value and the exact dividend of a division by zero is in the fault. -/
theorem eval_of_exact {formula : Formula} {source : RandomWords}
    (powerFree : formula.Without (.between .power))
    (fits : ∀ n ∈ (formula.exact source).met, FitsWord n) :
    (∀ n, (formula.exact source).result = .ok n →
      ∃ value : Int64, value.toInt = n ∧
        formula.eval source = (.ok value, (formula.exact source).source)) ∧
    (∀ n, (formula.exact source).result = .error n →
      ∃ dividend : Int64, dividend.toInt = n ∧
        formula.eval source =
          (.error (.divisionByZero dividend), (formula.exact source).source)) := by
  obtain ⟨same, after⟩ := Formula.exact_describes powerFree source fits
  constructor
  · intro n exactly
    rw [exactly] at same
    obtain ⟨value, toInt, given⟩ := same.exists_value
    exact ⟨value, toInt, Prod.ext given after.symm⟩
  · intro n exactly
    rw [exactly] at same
    obtain ⟨dividend, toInt, given⟩ := same.exists_dividend
    exact ⟨dividend, toInt, Prod.ext given after.symm⟩

/-- The value of `rand(7, 9) / -2` when the coin shows its first side, and the one word drawn. -/
theorem eval_of_exact_quotient :
    ∃ value : Int64, value.toInt = -3 ∧
      (Formula.binary (.between .divide) (.binary (.call .rand) (.constant 7) (.constant 9))
        (.unary .negate (.constant 2))).eval (.ofList [0]) =
          (.ok value, { RandomWords.ofList [0] with drawn := 1 }) :=
  (eval_of_exact (by decide) (by decide)).1 (-3) rfl

end TableFormula
