import TableFormula.Evaluation.Divisions

/-! Only divisions fail: an evaluation goes like the run that no fault stops, up to a faulty one. -/

namespace TableFormula

def Division.Faulty (division : Division) : Prop :=
  division.divisor = 0 ∨ (division.dividend = Int64.minValue ∧ division.divisor = -1)

instance : DecidablePred Division.Faulty := fun _ => inferInstanceAs (Decidable (_ ∨ _))

theorem Division.fault?_of_faulty {division : Division} (faulty : division.Faulty) :
    division.fault? = some (if division.divisor = 0 then .divisionByZero division.dividend
      else .overflow (.between .divide) Int64.minValue (-1)) := by
  unfold fault?
  split
  · rfl
  · rename_i nonzero
    exact if_pos (faulty.resolve_left nonzero)

theorem Division.fault?_of_not_faulty {division : Division} (sound : ¬division.Faulty) :
    division.fault? = none := by
  rw [fault?, if_neg fun zero => sound (.inl zero), if_neg fun bound => sound (.inr bound)]

/-! ### Runs up to the first fault -/

/-- Puts divisions before an outcome: the first faulty one takes its place. -/
def stopAt (word : Nat → UInt64) (divisions : List Division)
    (outcome : Except EvalError Int64 × RandomWords) : Except EvalError Int64 × RandomWords :=
  match divisions with
  | [] => outcome
  | division :: later =>
    match division.fault? with
    | some fault => (.error fault, ⟨word, division.drawn⟩)
    | none => stopAt word later outcome

section

variable {word : Nat → UInt64} {outcome : Except EvalError Int64 × RandomWords}

theorem stopAt_append (first later : List Division) :
    stopAt word (first ++ later) outcome = stopAt word first (stopAt word later outcome) := by
  induction first with
  | nil => rfl
  | cons division rest ih => simp only [List.cons_append, stopAt, ih]

theorem stopAt_of_sound {divisions : List Division}
    (sound : ∀ division ∈ divisions, ¬division.Faulty) : stopAt word divisions outcome = outcome := by
  induction divisions with
  | nil => rfl
  | cons division later ih =>
    obtain ⟨here, there⟩ := List.forall_mem_cons.mp sound
    simp only [stopAt, Division.fault?_of_not_faulty here, ih there]

theorem stopAt_of_faulty {before : List Division} {division : Division} (after : List Division)
    (sound : ∀ earlier ∈ before, ¬earlier.Faulty) (faulty : division.Faulty) :
    stopAt word (before ++ division :: after) outcome =
      (.error (if division.divisor = 0 then .divisionByZero division.dividend
        else .overflow (.between .divide) Int64.minValue (-1)), ⟨word, division.drawn⟩) := by
  rw [stopAt_append, stopAt_of_sound sound]
  simp only [stopAt, Division.fault?_of_faulty faulty]

theorem andThen_stopAt (divisions : List Division) (value : Int64) (source : RandomWords)
    (next : Int64 → RandomWords → Except EvalError Int64 × RandomWords) :
    Formula.andThen (stopAt word divisions (.ok value, source)) next =
      stopAt word divisions (next value source) := by
  induction divisions with
  | nil => rfl
  | cons division later ih =>
    simp only [stopAt]
    split
    · rfl
    · exact ih

end

/-- The outcome of a run once its first faulty division stops it. -/
def UnstoppedRun.stopped (word : Nat → UInt64) (run : UnstoppedRun) :
    Except EvalError Int64 × RandomWords :=
  stopAt word run.divisions (.ok run.value, run.source)

theorem BinaryOp.word_unstopped (op : BinaryOp) (m n : Int64) (source : RandomWords) :
    (op.unstopped m n source).source.word = source.word := by
  rcases op with op | fn
  · cases op <;> rfl
  · cases fn <;> rfl

theorem BinaryOp.apply_eq_stopped (op : BinaryOp) (m n : Int64) (source : RandomWords) :
    op.apply m n source = (op.unstopped m n source).stopped source.word := by
  rcases op with op | fn
  · cases op with
    | divide =>
      simp only [apply, InfixOp.apply, divide, unstopped, UnstoppedRun.stopped, stopAt,
        Division.fault?]
      by_cases zero : n = 0
      · simp only [if_pos zero]
      · by_cases bound : m = Int64.minValue ∧ n = -1
        · obtain ⟨rfl, rfl⟩ := bound
          rfl
        · simp only [if_neg zero, if_neg bound]
    | _ => rfl
  · cases fn <;> rfl

theorem BinaryOp.divisions_unstopped {op : BinaryOp} (notDivide : op ≠ .between .divide)
    (m n : Int64) (source : RandomWords) : (op.unstopped m n source).divisions = [] := by
  rcases op with op | fn
  · cases op with
    | divide => exact absurd rfl notDivide
    | _ => rfl
  · cases fn <;> rfl

namespace Formula

theorem word_unstopped (formula : Formula) (source : RandomWords) :
    (formula.unstopped source).source.word = source.word := by
  induction formula generalizing source with
  | constant | property => rfl
  | unary op operand ih => exact ih source
  | binary op left right ihLeft ihRight =>
    simp only [unstopped]
    rw [op.word_unstopped, ihRight, ihLeft]
  | conditional condition first second ihCondition ihFirst ihSecond =>
    simp only [unstopped]
    cases Branch.select (condition.unstopped source).value with
    | first => exact (ihFirst _).trans (ihCondition source)
    | second => exact (ihSecond _).trans (ihCondition source)

theorem eval_eq_stopped (formula : Formula) (source : RandomWords) :
    formula.eval source = (formula.unstopped source).stopped source.word := by
  induction formula generalizing source with
  | constant | property => rfl
  | unary op operand ih =>
    rw [eval_unary, ih, UnstoppedRun.stopped, andThen_stopAt]
    rfl
  | binary op left right ihLeft ihRight =>
    -- What the operands and the operator divide is one list, which is cut at its first fault.
    simp only [eval_binary, ihLeft, ihRight, op.apply_eq_stopped, UnstoppedRun.stopped,
      andThen_stopAt, word_unstopped]
    rw [← stopAt_append, ← stopAt_append]
    rfl
  | conditional condition first second ihCondition ihFirst ihSecond =>
    rw [eval_conditional, ihCondition, UnstoppedRun.stopped, andThen_stopAt]
    cases selected : Branch.select (condition.unstopped source).value with
    | first =>
      simp only [ihFirst, word_unstopped, UnstoppedRun.stopped, ← stopAt_append, unstopped, selected]
    | second =>
      simp only [ihSecond, word_unstopped, UnstoppedRun.stopped, ← stopAt_append, unstopped,
        selected]

theorem divisions_eq_nil_of_without {formula : Formula}
    (divisionFree : formula.Without (.between .divide)) (source : RandomWords) :
    (formula.unstopped source).divisions = [] := by
  induction formula generalizing source with
  | constant | property => rfl
  | unary op operand ih => exact ih divisionFree source
  | binary op left right ihLeft ihRight =>
    obtain ⟨notDivide, leftFree, rightFree⟩ := divisionFree
    simp only [unstopped, ihLeft leftFree, ihRight rightFree, List.nil_append]
    exact BinaryOp.divisions_unstopped notDivide _ _ _
  | conditional condition first second ihCondition ihFirst ihSecond =>
    obtain ⟨conditionFree, firstFree, secondFree⟩ := divisionFree
    simp only [unstopped, ihCondition conditionFree, List.nil_append]
    cases Branch.select (condition.unstopped source).value with
    | first => exact ihFirst firstFree _
    | second => exact ihSecond secondFree _

theorem eval_of_sound {formula : Formula} {source : RandomWords}
    (sound : ∀ division ∈ (formula.unstopped source).divisions, ¬division.Faulty) :
    formula.eval source =
      (.ok (formula.unstopped source).value, (formula.unstopped source).source) :=
  (formula.eval_eq_stopped source).trans (stopAt_of_sound sound)

theorem eval_of_faulty {formula : Formula} {source : RandomWords} {before after : List Division}
    {division : Division}
    (divisions : (formula.unstopped source).divisions = before ++ division :: after)
    (sound : ∀ earlier ∈ before, ¬earlier.Faulty) (faulty : division.Faulty) :
    formula.eval source =
      (.error (if division.divisor = 0 then .divisionByZero division.dividend
        else .overflow (.between .divide) Int64.minValue (-1)),
        { source with drawn := division.drawn }) := by
  rw [eval_eq_stopped, UnstoppedRun.stopped, divisions]
  exact stopAt_of_faulty after sound faulty

end Formula

/-- An evaluation fails exactly if it comes to a faulty division. The first one gives the fault, and
nothing is drawn after it. A formula without divisions always has a value. -/
theorem eval_fault_iff_faulty_division (formula : Formula) (source : RandomWords) :
    ((∃ fault, (formula.eval source).1 = .error fault) ↔
      ∃ division ∈ (formula.unstopped source).divisions, division.Faulty) ∧
    (∀ before division after,
      (formula.unstopped source).divisions = before ++ division :: after →
      (∀ earlier ∈ before, ¬earlier.Faulty) → division.Faulty →
      formula.eval source =
        (.error (if division.divisor = 0 then .divisionByZero division.dividend
          else .overflow (.between .divide) Int64.minValue (-1)),
          { source with drawn := division.drawn })) ∧
    (formula.Without (.between .divide) → ∃ value, (formula.eval source).1 = .ok value) := by
  refine ⟨⟨fun ⟨fault, failed⟩ => ?_, fun ⟨division, member, faulty⟩ => ?_⟩,
    fun _ _ _ divisions sound faulty => Formula.eval_of_faulty divisions sound faulty,
    fun divisionFree => ?_⟩
  · apply Classical.byContradiction
    intro none
    have sound : ∀ division ∈ (formula.unstopped source).divisions, ¬division.Faulty :=
      fun division member faulty => none ⟨division, member, faulty⟩
    rw [Formula.eval_of_sound sound] at failed
    cases failed
  · have some : ((formula.unstopped source).divisions.find? (·.Faulty)).isSome :=
      List.find?_isSome.mpr ⟨division, member, decide_eq_true faulty⟩
    obtain ⟨first, found⟩ := Option.isSome_iff_exists.mp some
    obtain ⟨firstFaulty, before, after, divisions, sound⟩ := List.find?_eq_some_iff_append.mp found
    have evaluated := Formula.eval_of_faulty divisions
      (fun earlier member => by simpa using sound earlier member) (of_decide_eq_true firstFaulty)
    rw [evaluated]
    exact ⟨_, rfl⟩
  · have none := Formula.divisions_eq_nil_of_without divisionFree source
    rw [Formula.eval_of_sound (none ▸ List.forall_mem_nil _)]
    exact ⟨_, rfl⟩

/-- In `rand(1, 5 / 0) + 1 / 0` the division of five comes first, before a word is drawn. -/
theorem eval_fault_of_first_quotient :
    (Formula.binary (.between .add)
      (.binary (.call .rand) (.constant 1)
        (.binary (.between .divide) (.constant 5) (.constant 0)))
      (.binary (.between .divide) (.constant 1) (.constant 0))).eval (.ofList [0]) =
      (.error (.divisionByZero 5), .ofList [0]) :=
  (eval_fault_iff_faulty_division _ _).2.1 [] ⟨5, 0, 0⟩ [⟨1, 0, 1⟩] rfl (List.forall_mem_nil _)
    (by decide)

end TableFormula
