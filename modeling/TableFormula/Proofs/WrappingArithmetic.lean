import Mathlib.Data.Int.ModEq
import TableFormula.Evaluation.Exact

namespace TableFormula

theorem ofInt_eq_ofInt_iff {m n : Int} :
    Int64.ofInt m = Int64.ofInt n ↔ m ≡ n [ZMOD 2 ^ 64] := by
  show _ ↔ m % ((2 ^ 64 : Nat) : Int) = n % ((2 ^ 64 : Nat) : Int)
  rw [Int64.ofInt_eq_iff_bmod_eq_toInt, Int64.toInt_ofInt]
  constructor
  · intro same
    have residues := congrArg (· % ((2 ^ 64 : Nat) : Int)) same
    exact Int.bmod_emod.symm.trans (residues.trans Int.bmod_emod)
  · intro same
    rw [← Int.emod_bmod m, same, Int.emod_bmod]

theorem toInt_modEq_iff {word : Int64} {n : Int} : word.toInt ≡ n [ZMOD 2 ^ 64] ↔ word = .ofInt n := by
  rw [← ofInt_eq_ofInt_iff, Int64.ofInt_toInt]

namespace Formula

variable {formula : Formula}

theorem eval_eq_ofInt (polynomial : formula.IsPolynomial) (source : RandomWords) :
    formula.eval source = (.ok (.ofInt formula.polynomialValue), source) := by
  induction formula with
  | constant value => rw [polynomialValue, Int64.ofInt_toInt, eval]
  | property reference => rfl
  | unary op operand ih =>
    rw [eval_unary, ih polynomial]
    cases op with
    | plus => rfl
    | negate => simp only [andThen, PrefixOp.apply, polynomialValue, Int64.ofInt_neg]
  | binary op left right ihLeft ihRight =>
    cases op with
    | call fn => exact polynomial.elim
    | between op =>
      obtain ⟨ring, polynomialLeft, polynomialRight⟩ := polynomial
      simp only [eval_binary, ihLeft polynomialLeft, ihRight polynomialRight, andThen,
        BinaryOp.apply]
      rcases ring with rfl | rfl | rfl
      · rw [InfixOp.apply, polynomialValue, Int64.ofInt_add]
      · rw [InfixOp.apply, polynomialValue, Int64.ofInt_sub]
      · rw [InfixOp.apply, polynomialValue, Int64.ofInt_mul]
  | conditional => exact polynomial.elim

end Formula

/-- A formula of sums, differences, products and signs has the one word as its value that is congruent
to its exact value, on every random source, which it leaves as it is. So two such formulas are
evaluated alike exactly if their exact values are congruent. -/
theorem eval_modEq_polynomialValue (formula : Formula) (polynomial : formula.IsPolynomial) :
    (∃ value : Int64, (∀ source, formula.eval source = (.ok value, source)) ∧
      ∀ word : Int64, word.toInt ≡ formula.polynomialValue [ZMOD 2 ^ 64] ↔ word = value) ∧
    ∀ other : Formula, other.IsPolynomial → ∀ source,
      (other.eval source = formula.eval source ↔
        other.polynomialValue ≡ formula.polynomialValue [ZMOD 2 ^ 64]) := by
  refine ⟨⟨.ofInt formula.polynomialValue, Formula.eval_eq_ofInt polynomial, ?_⟩, ?_⟩
  · intro word
    exact toInt_modEq_iff
  · intro other polynomialOther source
    rw [Formula.eval_eq_ofInt polynomialOther, Formula.eval_eq_ofInt polynomial,
      ← ofInt_eq_ofInt_iff]
    simp only [Prod.mk.injEq, Except.ok.injEq, and_true]

/-- The greatest word times itself overflows, and is congruent to one. -/
theorem eval_modEq_polynomialValue_square :
    (Formula.binary (.between .multiply) (.constant Int64.maxValue)
      (.constant Int64.maxValue)).eval (.ofList []) = (.ok 1, .ofList []) := by
  obtain ⟨⟨value, evaluated, unique⟩, -⟩ := eval_modEq_polynomialValue
    (.binary (.between .multiply) (.constant Int64.maxValue) (.constant Int64.maxValue))
    ⟨.inr (.inr rfl), trivial, trivial⟩
  obtain rfl : 1 = value := (unique 1).mp (by decide)
  exact evaluated _

end TableFormula
