import TableFormula.Evaluation.Outcome
import TableFormula.Proofs.DrawnWords

namespace TableFormula

open RandomWords

theorem Outcome.apply {left right : Formula} {m n : Int64} (op : BinaryOp)
    (first : Outcome left (.ok m)) (second : Outcome right (.ok n)) (source : RandomWords) :
    Outcome (.binary op left right) (op.apply m n source).1 := by
  rcases op with op | fn
  · exact .between op first second
  · cases fn with
    | min => exact .least first second
    | max => exact .greatest first second
    | rand =>
      simp only [BinaryOp.apply, Builtin.apply]
      split
      · exact .randLeft first second
      · exact .randRight first second

theorem Formula.outcome_eval (formula : Formula) (source : RandomWords) :
    Outcome formula (formula.eval source).1 := by
  induction formula generalizing source with
  | constant value => exact .constant value
  | property reference => exact .property reference
  | unary op operand ih =>
    rw [eval_unary]
    have possible := ih source
    generalize operand.eval source = run at possible ⊢
    obtain ⟨fault | value, after⟩ := run
    · exact .unaryFault op possible
    · exact .unary op possible
  | binary op left right ihLeft ihRight =>
    rw [eval_binary]
    have possibleLeft := ihLeft source
    generalize left.eval source = run at possibleLeft ⊢
    obtain ⟨fault | m, between⟩ := run
    · exact .leftFault op right possibleLeft
    · simp only [andThen]
      have possibleRight := ihRight between
      generalize right.eval between = run at possibleRight ⊢
      obtain ⟨fault | n, after⟩ := run
      · exact .rightFault op possibleLeft possibleRight
      · exact .apply op possibleLeft possibleRight after
  | conditional condition first second ihCondition ihFirst ihSecond =>
    rw [eval_conditional]
    have possible := ihCondition source
    generalize condition.eval source = run at possible ⊢
    obtain ⟨fault | value, after⟩ := run
    · exact .conditionFault first second possible
    · by_cases zero : value = 0
      · subst zero
        exact .second first possible (ihSecond after)
      · simp only [andThen, Branch.select, if_neg zero]
        exact .first second possible zero (ihFirst after)

theorem exists_consumes_binary {left right : Formula} {m n : Int64} {op : BinaryOp}
    {last : List UInt64} {result : Except EvalError Int64}
    (first : ∃ words, Consumes left.eval words (.ok m))
    (second : ∃ words, Consumes right.eval words (.ok n))
    (applied : Consumes (op.apply m n) last result) :
    ∃ words, Consumes (Formula.binary op left right).eval words result := by
  obtain ⟨front, consumesLeft⟩ := first
  obtain ⟨back, consumesRight⟩ := second
  rw [funext (Formula.eval_binary op left right)]
  exact ⟨front ++ (back ++ last), consumesLeft.andThen (consumesRight.andThen applied)⟩

theorem exists_consumes_branch {condition first second : Formula} {value : Int64}
    {result : Except EvalError Int64} (decided : ∃ words, Consumes condition.eval words (.ok value))
    (taken : ∃ words, Consumes (if value = 0 then second else first).eval words result) :
    ∃ words, Consumes (Formula.conditional condition first second).eval words result := by
  obtain ⟨front, consumesCondition⟩ := decided
  obtain ⟨back, consumesBranch⟩ := taken
  rw [funext (Formula.eval_conditional condition first second)]
  refine ⟨front ++ back, consumesCondition.andThen ?_⟩
  by_cases zero : value = 0
  · rw [if_pos zero] at consumesBranch
    simpa only [Branch.select, if_pos zero] using consumesBranch
  · rw [if_neg zero] at consumesBranch
    simpa only [Branch.select, if_neg zero] using consumesBranch

theorem Outcome.exists_words {formula : Formula} {result : Except EvalError Int64}
    (possible : Outcome formula result) : ∃ words, Consumes formula.eval words result := by
  induction possible with
  | constant value => exact ⟨[], .nothing _⟩
  | property reference => exact ⟨[], .nothing _⟩
  | unary op _ ih =>
    obtain ⟨words, consumes⟩ := ih
    rw [funext (Formula.eval_unary op _)]
    exact ⟨words ++ [], consumes.andThen (.nothing _)⟩
  | unaryFault op _ ih =>
    obtain ⟨words, consumes⟩ := ih
    rw [funext (Formula.eval_unary op _)]
    exact ⟨words, consumes.andThen_fault⟩
  | leftFault op right _ ih =>
    obtain ⟨words, consumes⟩ := ih
    rw [funext (Formula.eval_binary op _ right)]
    exact ⟨words, consumes.andThen_fault⟩
  | rightFault op _ _ ihLeft ihRight =>
    obtain ⟨front, consumesLeft⟩ := ihLeft
    obtain ⟨back, consumesRight⟩ := ihRight
    rw [funext (Formula.eval_binary op _ _)]
    exact ⟨front ++ back, consumesLeft.andThen consumesRight.andThen_fault⟩
  | between op _ _ ihLeft ihRight => exact exists_consumes_binary ihLeft ihRight (.nothing _)
  | least _ _ ihLeft ihRight => exact exists_consumes_binary ihLeft ihRight (.nothing _)
  | greatest _ _ ihLeft ihRight => exact exists_consumes_binary ihLeft ihRight (.nothing _)
  | randLeft _ _ ihLeft ihRight => exact exists_consumes_binary ihLeft ihRight (.rand _ _ 0)
  | randRight _ _ ihLeft ihRight =>
    exact exists_consumes_binary ihLeft ihRight (.rand _ _ 0x8000000000000000)
  | conditionFault first second _ ih =>
    obtain ⟨words, consumes⟩ := ih
    rw [funext (Formula.eval_conditional _ first second)]
    exact ⟨words, consumes.andThen_fault⟩
  | first second _ nonzero _ ihCondition ihFirst =>
    exact exists_consumes_branch ihCondition (by rwa [if_neg nonzero])
  | second first _ _ ihCondition ihSecond =>
    exact exists_consumes_branch ihCondition (by rwa [if_pos rfl])

/-- The outcomes of a formula, whose `rand` may each take either argument, are those that some random
words give it. A word stands for the first argument exactly if it is in the lower half of the words. -/
theorem outcome_iff_exists_source (formula : Formula) (result : Except EvalError Int64) :
    (Outcome formula result ↔ ∃ source : RandomWords, (formula.eval source).1 = result) ∧
    (Outcome formula result ↔ ∃ words : List UInt64, ∀ source : RandomWords,
      source.upcoming words.length = words →
        formula.eval source = (result, source.advance words.length)) ∧
    ∀ (m n : Int64) (source : RandomWords), (BinaryOp.call .rand).apply m n source =
      (.ok (if (source.word source.drawn).toNat < 0x8000000000000000 then m else n),
        source.advance 1) := by
  have given : (∃ words, Consumes formula.eval words result) →
      ∃ source : RandomWords, (formula.eval source).1 = result := by
    rintro ⟨words, consumes⟩
    exact ⟨.ofList words, congrArg Prod.fst (consumes _ (upcoming_ofList words))⟩
  have possible : (∃ source : RandomWords, (formula.eval source).1 = result) →
      Outcome formula result := by
    rintro ⟨source, rfl⟩
    exact formula.outcome_eval source
  refine ⟨⟨fun outcome => given outcome.exists_words, possible⟩,
    ⟨Outcome.exists_words, fun words => possible (given words)⟩, ?_⟩
  intro m n source
  simp only [BinaryOp.apply, Builtin.apply, draw_eq, heads_iff]

/-- Two calls of `rand` toss two coins, so that `rand(1, 2) - rand(1, 2)` may be one. -/
theorem outcome_iff_exists_source_two_coins :
    Outcome (.binary (.between .subtract) (.binary (.call .rand) (.constant 1) (.constant 2))
      (.binary (.call .rand) (.constant 1) (.constant 2))) (.ok 1) :=
  (outcome_iff_exists_source _ _).1.mpr ⟨.ofList [0x8000000000000000, 0], rfl⟩

end TableFormula
