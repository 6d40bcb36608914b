import TableFormula.Proofs.DrawnWords

namespace TableFormula

namespace Formula

theorem eval_of_without_rand {formula : Formula} (still : formula.Without (.call .rand))
    (source other : RandomWords) : formula.eval other = ((formula.eval source).1, other) := by
  obtain ⟨drawn, few, -, determined⟩ := formula.draws_eval.exists_drawn source
  rw [count_eq_zero_iff.mpr still] at few
  obtain rfl := Nat.le_zero.mp few
  exact determined other rfl

/-- The source that a constant formula is folded with is any. -/
theorem fold?_eq (formula : Formula) (source : RandomWords) :
    formula.fold? = if formula.isConstant then (formula.eval source).1.toOption else none := by
  unfold fold?
  split
  · rename_i constant
    rw [eval_of_without_rand (isConstant_iff.mp constant).2 source (.ofList [])]
    rcases formula.eval source with ⟨fault | value, after⟩ <;> rfl
  · rfl

theorem fold?_eq_some_iff {formula : Formula} {value : Int64} (source : RandomWords) :
    formula.fold? = some value ↔
      formula.isConstant = true ∧ (formula.eval source).1 = .ok value := by
  rw [formula.fold?_eq source, Option.ite_none_right_eq_some]
  apply and_congr_right
  intro _
  rcases formula.eval source with ⟨fault | found, after⟩ <;> simp [Except.toOption]

end Formula

/-- A formula is constant exactly if it names no property and applies no `rand`. Its evaluation is
then the same on all random sources, which it leaves as they are, and its folding gives the value, if
there is one. -/
theorem isConstant_iff_and_fold (formula : Formula) :
    (formula.isConstant = true ↔
      formula.references = [] ∧ formula.Without (.call .rand)) ∧
    (formula.isConstant = true →
      ∃ result, ∀ source : RandomWords, formula.eval source = (result, source)) ∧
    (∀ source, formula.fold? =
      if formula.isConstant then (formula.eval source).1.toOption else none) ∧
    ∀ value, formula.fold? = some value ↔
      formula.isConstant = true ∧
        ∀ source : RandomWords, (formula.eval source).1 = .ok value := by
  refine ⟨Formula.isConstant_iff, ?_, formula.fold?_eq, ?_⟩
  · intro constant
    refine ⟨(formula.eval (.ofList [])).1, fun source => ?_⟩
    exact Formula.eval_of_without_rand (Formula.isConstant_iff.mp constant).2 (.ofList []) source
  · intro value
    constructor
    · intro folded
      obtain ⟨constant, -⟩ := (Formula.fold?_eq_some_iff (.ofList [])).mp folded
      exact ⟨constant, fun source => ((Formula.fold?_eq_some_iff source).mp folded).2⟩
    · rintro ⟨constant, evaluated⟩
      exact (Formula.fold?_eq_some_iff (.ofList [])).mpr ⟨constant, evaluated _⟩

/-- `1 ? 5 : 7 / 0` is folded to five, whatever its other branch comes to. -/
theorem isConstant_iff_and_fold_other_branch :
    (Formula.conditional (.constant 1) (.constant 5)
      (.binary (.between .divide) (.constant 7) (.constant 0))).fold? = some 5 :=
  ((isConstant_iff_and_fold _).2.2.2 5).mpr ⟨rfl, fun _ => rfl⟩

end TableFormula
