import TableFormula.Grammar.Steps
import TableFormula.Proofs.ReaderInduction

namespace TableFormula

open TokenSource TokenMonad ReadingMonad

/-- A relation between the readings in two monads that each of their operations keeps. -/
structure ReadingRelation (σ : Type) (options : Options) (m n : Type → Type) [Monad m] [Monad n]
    [MonadLiftT (Except ParseError) m] [MonadLiftT (Except ParseError) n] [ReadingMonad σ m]
    [ReadingMonad σ n] where
  rel {α : Type} : m α → n α → Prop
  lift {α : Type} (result : Except ParseError α) : rel (liftM result) (liftM result)
  bind {α β : Type} {x : m α} {y : n α} {f : α → m β} {g : α → n β} :
    rel x y → (∀ a, rel (f a) (g a)) → rel (x >>= f) (y >>= g)
  take (ahead : Lookahead σ) : rel (take ahead) (take ahead)
  turn (before after : σ) : rel (turn before after) (turn before after)
  nested {α : Type} {x : m α} {y : n α} (source : σ) :
    rel x y → rel (nested options source x) (nested options source y)

namespace ReadingRelation

variable {σ : Type} [TokenSource σ] {options : Options} {owner : Owner} {m n : Type → Type}
  [Monad m] [Monad n] [MonadLiftT (Except ParseError) m] [MonadLiftT (Except ParseError) n]
  [LawfulMonadLiftT (Except ParseError) m] [LawfulMonadLiftT (Except ParseError) n]
  [ReadingMonad σ m] [ReadingMonad σ n] (relation : ReadingRelation σ options m n)

include relation

omit [TokenSource σ] in
theorem pure {α : Type} (a : α) : relation.rel (pure a) (pure a) := by
  rw [← liftM_pure (m := Except ParseError) (n := m), ← liftM_pure (m := Except ParseError) (n := n)]
  exact relation.lift _

theorem expect (what : Expectation) (source : σ) :
    relation.rel (expectTraced what source) (expectTraced what source) :=
  relation.bind (relation.lift _) fun _ => relation.bind (relation.take _) fun _ => relation.pure _

theorem closeParenthesis (inner : Parsed σ) :
    relation.rel (closeParenthesisBelow options inner) (closeParenthesisBelow options inner) := by
  refine relation.bind (relation.lift _) fun found => ?_
  dsimp only
  repeat' split
  · exact relation.bind (relation.take _) fun _ => relation.pure _
  · exact relation.pure _
  · exact relation.lift _

theorem property (kind : String) (source : σ) :
    relation.rel (propertyBelow kind source) (propertyBelow kind source) :=
  relation.bind (relation.expect ..) fun _ => relation.bind (relation.expect ..) fun _ =>
    relation.bind (relation.expect ..) fun _ => relation.bind (relation.expect ..) fun _ =>
    relation.bind (relation.expect ..) fun _ => relation.pure _

variable (owner)

def ExprRelated (least : Nat) (source : σ) : Prop :=
  relation.rel (exprBelow options owner least source) (exprBelow options owner least source)

def InfixTailRelated (least : Nat) (chain : Parsed σ) : Prop :=
  relation.rel (infixTailBelow options owner least chain) (infixTailBelow options owner least chain)

def ConditionalTailRelated (least : Nat) (condition : Parsed σ) : Prop :=
  relation.rel (conditionalTailBelow options owner least condition)
    (conditionalTailBelow options owner least condition)

def OperandRelated (source : σ) : Prop :=
  relation.rel (operandBelow options owner source) (operandBelow options owner source)

def ValueRelated (token : Token) (source : σ) : Prop :=
  relation.rel (valueBelow options owner token source) (valueBelow options owner token source)

variable {relation owner} {least : Nat}

theorem expr_related {source : σ} (operand : relation.OperandRelated owner source)
    (tails : ∀ chain : Parsed σ, left chain.source < left source →
      relation.InfixTailRelated owner least chain ∧
        relation.ConditionalTailRelated owner least chain) :
    relation.ExprRelated owner least source := by
  rw [ExprRelated, exprBelow, exprBelow]
  refine relation.nested source (relation.bind operand ?_)
  rintro ⟨first, below⟩
  refine relation.bind (tails first below).1 ?_
  rintro ⟨chain, belowFirst⟩
  exact relation.bind (tails chain (by omega)).2 fun whole => relation.pure _

theorem infixTail_related {chain : Parsed σ}
    (exprs : ∀ least (later : σ), left later < left chain.source →
      relation.ExprRelated owner least later)
    (tails : ∀ grown : Parsed σ, left grown.source < left chain.source →
      relation.InfixTailRelated owner least grown) :
    relation.InfixTailRelated owner least chain := by
  rw [InfixTailRelated, infixTailBelow, infixTailBelow]
  refine relation.bind (relation.lift _) ?_
  rintro ⟨ahead, found⟩
  dsimp only
  split
  · exact relation.pure _
  · rename_i op taken
    have fewer := left_rest (lookahead_eq_ok.mp found) (ne_endOfInput_of_takesInfix taken)
    refine relation.bind (relation.take _) fun _ => relation.bind (exprs _ _ fewer) ?_
    rintro ⟨right, belowRight⟩
    refine relation.bind (relation.lift _) ?_
    rintro ⟨grown, made⟩
    have source : left grown.source = left right.source := congrArg left (source_of_node made)
    exact relation.bind (relation.turn _ _) fun _ =>
      relation.bind (tails grown (by omega)) fun whole => relation.pure _

theorem conditionalTail_related {condition : Parsed σ}
    (exprs : ∀ least (later : σ), left later < left condition.source →
      relation.ExprRelated owner least later)
    (tails : ∀ grown : Parsed σ, left grown.source < left condition.source →
      relation.ConditionalTailRelated owner least grown) :
    relation.ConditionalTailRelated owner least condition := by
  rw [ConditionalTailRelated, conditionalTailBelow, conditionalTailBelow]
  refine relation.bind (relation.lift _) ?_
  rintro ⟨ahead, found⟩
  dsimp only
  split
  · rename_i taken
    have fewer := left_rest (lookahead_eq_ok.mp found) (ne_endOfInput_of_takesConditional taken)
    refine relation.bind (relation.take _) fun _ => relation.bind (exprs _ _ fewer) ?_
    rintro ⟨first, belowFirst⟩
    refine relation.bind (relation.expect ..) ?_
    rintro ⟨marker, marked⟩
    have belowMarker : left marker.rest < left first.source := left_of_expect marked
    refine relation.bind (exprs _ marker.rest (by omega)) ?_
    rintro ⟨second, (belowSecond : left second.source < left marker.rest)⟩
    refine relation.bind (relation.lift _) ?_
    rintro ⟨grown, made⟩
    have source : left grown.source = left second.source := congrArg left (source_of_node made)
    exact relation.bind (relation.turn _ _) fun _ =>
      relation.bind (tails grown (by omega)) fun whole => relation.pure _
  · exact relation.pure _

theorem operand_related {source : σ}
    (exprs : ∀ least (later : σ), left later < left source → relation.ExprRelated owner least later)
    (values : ∀ token (later : σ), left later < left source →
      relation.ValueRelated owner token later) :
    relation.OperandRelated owner source := by
  rw [OperandRelated, operandBelow, operandBelow]
  refine relation.bind (relation.lift _) ?_
  rintro ⟨ahead, found⟩
  have fewer := left_rest (lookahead_eq_ok.mp found)
  obtain ⟨token, held, rest⟩ := ahead
  cases token with
  | symbol text =>
    have below := fewer Token.noConfusion
    dsimp only
    split
    · refine relation.bind (relation.take _) fun _ => relation.bind (exprs _ _ below) ?_
      rintro ⟨inner, belowInner⟩
      exact relation.bind (relation.closeParenthesis inner) fun closed => relation.pure _
    · split
      · refine relation.bind (relation.take _) fun _ => relation.bind (exprs _ _ below) ?_
        rintro ⟨operand, belowOperand⟩
        exact relation.bind (relation.lift _) fun grown => relation.pure _
      · exact relation.lift _
  | number | name =>
    exact relation.bind (relation.take _) fun _ =>
      relation.bind (values _ _ (fewer Token.noConfusion)) fun value => relation.pure _
  | string | endOfInput => exact relation.lift _

theorem value_related {token : Token} {source : σ}
    (exprs : ∀ least (later : σ), left later < left source → relation.ExprRelated owner least later) :
    relation.ValueRelated owner token source := by
  rw [ValueRelated, valueBelow.eq_def, valueBelow.eq_def]
  cases token with
  | number digits => exact relation.bind (relation.lift _) fun value => relation.pure _
  | name name =>
    dsimp only
    split
    · exact relation.bind (relation.property ..) fun value => relation.pure _
    · split
      · refine relation.bind (relation.expect ..) ?_
        rintro ⟨opening, opened⟩
        have belowOpening := left_of_expect opened
        refine relation.bind (exprs _ _ belowOpening) ?_
        rintro ⟨first, (belowFirst : left first.source < left opening.rest)⟩
        refine relation.bind (relation.expect ..) ?_
        rintro ⟨comma, divided⟩
        have belowComma : left comma.rest < left first.source := left_of_expect divided
        refine relation.bind (exprs _ comma.rest (by omega)) ?_
        rintro ⟨second, belowSecond⟩
        exact relation.bind (relation.expect ..) fun closing =>
          relation.bind (relation.lift _) fun grown => relation.pure _
      · exact relation.bind (relation.lift _) fun value => relation.pure _
  | symbol | string | endOfInput => exact relation.lift _

variable (relation owner)

theorem readers_related :
    (∀ least (source : σ), relation.ExprRelated owner least source) ∧
      (∀ least (chain : Parsed σ), relation.InfixTailRelated owner least chain) ∧
      (∀ least (condition : Parsed σ), relation.ConditionalTailRelated owner least condition) ∧
      (∀ source : σ, relation.OperandRelated owner source) ∧
      ∀ token (source : σ), relation.ValueRelated owner token source := by
  have all : (∀ (_ least : Nat) (source : σ), relation.ExprRelated owner least source) ∧
      (∀ (_ least : Nat) (chain : Parsed σ), relation.InfixTailRelated owner least chain) ∧
      (∀ (_ least : Nat) (condition : Parsed σ), relation.ConditionalTailRelated owner least condition) ∧
      (∀ (_ : Nat) (source : σ), relation.OperandRelated owner source) ∧
      ∀ (_ : Nat) (token : Token) (source : σ), relation.ValueRelated owner token source := by
    refine readers_induction ?_ ?_ ?_ ?_ ?_
    · intro depth least source operands tails
      exact expr_related (operands depth) (tails depth least)
    · intro depth least chain exprs tails
      exact infixTail_related (exprs depth) tails
    · intro depth least condition exprs tails
      exact conditionalTail_related (exprs depth) tails
    · intro depth source parts
      exact operand_related (fun least later fewer => (parts depth least later fewer).1)
        fun token later fewer => (parts depth 0 later fewer).2 token
    · intro depth token source exprs
      exact value_related (exprs depth)
  obtain ⟨exprs, infixTails, conditionalTails, operands, values⟩ := all
  exact ⟨exprs 0, infixTails 0, conditionalTails 0, operands 0, values 0⟩

variable [LawfulMonad m] [LawfulMonad n]

omit [TokenSource σ] in
theorem map {α β : Type} {x : m α} {y : n α} (f : α → β) (related : relation.rel x y) :
    relation.rel (f <$> x) (f <$> y) := by
  rw [map_eq_pure_bind, map_eq_pure_bind]
  exact relation.bind related fun a => relation.pure (f a)

theorem exprIn (least : Nat) (source : σ) :
    relation.rel (exprIn m options owner least source) (exprIn n options owner least source) :=
  relation.map _ ((relation.readers_related owner).1 least source)

theorem infixTailIn (least : Nat) (chain : Parsed σ) :
    relation.rel (infixTailIn m options owner least chain)
      (infixTailIn n options owner least chain) :=
  relation.map _ ((relation.readers_related owner).2.1 least chain)

theorem operandIn (source : σ) :
    relation.rel (operandIn m options owner source) (operandIn n options owner source) :=
  relation.map _ ((relation.readers_related owner).2.2.2.1 source)

end ReadingRelation

/-! ### The reading whose steps are noted -/

namespace Recorded

variable {σ : Type} [TokenSource σ]

omit [TokenSource σ] in
/-- A recorded reading and a told one end with the same result at every depth. -/
def erasing (options : Options) : ReadingRelation σ options (Recorded σ) Told where
  rel recorded told := ∀ depth, recorded.result depth = told depth
  lift _ _ := rfl
  bind {_ _ x y f g} same later depth := by
    rw [result_bind, same]
    exact bind_congr (m := Except ParseError) fun a => later a depth
  take _ _ := rfl
  turn _ _ _ := rfl
  nested source same depth := by
    rw [result_nested, same]
    rfl

variable (options : Options) (owner : Owner) (depth least : Nat) (source : σ)

theorem result_exprIn : (exprIn (Recorded σ) options owner least source).result depth =
    expr options owner depth least source :=
  (erasing options).exprIn owner least source depth

theorem result_infixTailIn (chain : Parsed σ) :
    (infixTailIn (Recorded σ) options owner least chain).result depth =
      infixTail options owner depth least chain :=
  (erasing options).infixTailIn owner least chain depth

theorem result_operandIn : (operandIn (Recorded σ) options owner source).result depth =
    operand options owner depth source :=
  (erasing options).operandIn owner source depth

end Recorded

/-! ### The steps of a formula that is read -/

namespace Recorded

variable {σ α β : Type} {options : Options} {owner : Owner} {depth least : Nat}

theorem steps_bind_of_ok {recorded : Recorded σ α} {a : α} (ended : recorded.result depth = .ok a)
    (f : α → Recorded σ β) :
    (recorded >>= f).steps depth = recorded.steps depth ++ (f a).steps depth := by
  rw [steps_bind, ended]

variable [TokenSource σ] {source : σ} {ahead : Lookahead σ} {first chain parsed : Parsed σ}

/-- The steps of a formula that is read are those of its first operand and of the two loops. -/
theorem exprSteps_of_ok (read : expr options owner depth least source = .ok parsed) :
    ∃ first chain, operand options owner (depth + 1) source = .ok first ∧
      infixTail options owner (depth + 1) least first = .ok chain ∧
      exprSteps options owner depth least source = .call depth source ::
        ((operandIn (Recorded σ) options owner source).steps (depth + 1) ++
          ((infixTailIn (Recorded σ) options owner least first).steps (depth + 1) ++
            (conditionalTailIn (Recorded σ) options owner least chain).steps (depth + 1))) := by
  rw [expr_eq] at read
  split at read
  · cases read
  · rename_i shallow
    obtain ⟨first, readFirst, read⟩ := ok_of_bind read
    obtain ⟨chain, readChain, -⟩ := ok_of_bind read
    refine ⟨first, chain, readFirst, readChain, ?_⟩
    rw [← result_operandIn] at readFirst
    rw [← result_infixTailIn] at readChain
    rw [exprSteps, exprIn_eq, steps_nested, if_neg shallow, steps_bind_of_ok readFirst,
      steps_bind_of_ok readChain]

/-- A formula is begun behind an opening parenthesis. -/
theorem steps_operandIn_group (looked : lookahead source = .ok ahead)
    (opening : ahead.token = .symbol "(") (read : operand options owner depth source = .ok parsed) :
    ∃ inner later, expr options owner depth 0 ahead.rest = .ok inner ∧
      (operandIn (Recorded σ) options owner source).steps depth =
        .take ahead.token :: (exprSteps options owner depth 0 ahead.rest ++ later) := by
  rw [operand_eq, looked, ok_bind] at read
  rw [operandIn_eq, looked, exprSteps]
  obtain ⟨token, held, rest⟩ := ahead
  obtain rfl := opening
  dsimp only at read
  rw [if_pos rfl] at read
  obtain ⟨inner, readInner, -⟩ := ok_of_bind read
  refine ⟨inner, (closeParenthesisIn (Recorded σ) options inner).steps depth, readInner, ?_⟩
  rw [← result_exprIn] at readInner
  exact congrArg (ReadStep.take _ :: ·) (steps_bind_of_ok readInner _)

/-- Behind an infix operator a formula is begun, and then the loop ends a turn. -/
theorem steps_infixTailIn_of_taken {op : InfixOp} (looked : lookahead first.source = .ok ahead)
    (taken : takesInfix least ahead.token = some op)
    (read : infixTail options owner depth least first = .ok chain) :
    ∃ next later, (infixTailIn (Recorded σ) options owner least first).steps depth =
      .take ahead.token :: (exprSteps options owner depth op.operandLevel ahead.rest ++
        .turn first.source next :: later) := by
  rw [infixTail_eq, looked, ok_bind] at read
  simp only [taken] at read
  obtain ⟨right, readRight, read⟩ := ok_of_bind read
  obtain ⟨grown, made, -⟩ := ok_of_bind read
  refine ⟨grown.source, (infixTailIn (Recorded σ) options owner least grown).steps depth, ?_⟩
  rw [← result_exprIn] at readRight
  rw [infixTailIn_eq, looked, exprSteps, steps_bind_of_ok rfl]
  simp only [taken]
  refine congrArg (ReadStep.take _ :: ·) ((steps_bind_of_ok readRight _).trans ?_)
  rw [made]
  rfl

end Recorded

end TableFormula
