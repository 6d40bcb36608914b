import TableFormula.Proofs.DepthCounting
import TableFormula.Proofs.WholeFormula

namespace TableFormula

open TokenSource

variable {σ : Type} [TokenSource σ]

/-- Whether a formula was given its own height, within the limit. -/
def Parsed.Measured (options : Options) (parsed : Parsed σ) : Prop :=
  parsed.height = parsed.formula.height ∧ parsed.height ≤ options.maxDepth

/-- Whether a source keeps its next token, and the token is as described. -/
def Keeps (described : Token → Prop) (source : σ) : Prop :=
  ∃ ahead, look source = .ok ahead ∧ ahead.held = source ∧ described ahead.token

variable {options : Options} {owner : Owner} {depth least : Nat}

theorem keeps_held {described : Token → Prop} {source : σ} {ahead : Lookahead σ}
    (found : lookahead source = .ok ahead) (holds : described ahead.token) :
    Keeps described ahead.held :=
  ⟨ahead, look_held (lookahead_eq_ok.mp found), rfl, holds⟩

theorem Keeps.mono {described weaker : Token → Prop} {source : σ} (keeps : Keeps described source)
    (implies : ∀ token, described token → weaker token) : Keeps weaker source := by
  obtain ⟨ahead, looked, held, holds⟩ := keeps
  exact ⟨ahead, looked, held, implies _ holds⟩

theorem Keeps.lookahead {described : Token → Prop} {source : σ} (keeps : Keeps described source) :
    ∃ ahead, TableFormula.lookahead source = .ok ahead ∧ ahead.held = source ∧
      described ahead.token := by
  obtain ⟨ahead, looked, held, holds⟩ := keeps
  exact ⟨ahead, lookahead_eq_ok.mpr looked, held, holds⟩

omit [TokenSource σ] in
theorem measured_leaf {formula : Formula} (flat : formula.height = 1) (source : σ)
    (deep : 0 < options.maxDepth) : (leaf formula source).Measured options :=
  ⟨flat.symm, deep⟩

omit [TokenSource σ] in
theorem measured_node {formula : Formula} {partHeight : Nat} {source : σ} {parsed : Parsed σ}
    (high : formula.height = partHeight + 1)
    (made : node options formula partHeight source = .ok parsed) : parsed.Measured options := by
  unfold node at made
  split at made
  · cases made
  · rename_i low
    cases made
    exact ⟨high.symm, Nat.le_of_not_lt low⟩

theorem measured_closeParenthesis {inner parsed : Parsed σ} (measured : inner.Measured options)
    (closed : closeParenthesis options inner = .ok parsed) : parsed.Measured options := by
  rw [closeParenthesis_eq] at closed
  obtain ⟨ahead, -, closed⟩ := ok_of_bind closed
  repeat' split at closed
  all_goals cases closed
  all_goals exact measured

omit [TokenSource σ] in
theorem measured_number {digits : String} {source : σ} {parsed : Parsed σ}
    (deep : 0 < options.maxDepth) (read : number digits source = .ok parsed) :
    parsed.Measured options := by
  unfold number at read
  split at read
  · cases read
    exact measured_leaf rfl source deep
  · cases read

theorem measured_property {kind : String} {source : σ} {parsed : Parsed σ}
    (deep : 0 < options.maxDepth) (read : property kind source = .ok parsed) :
    parsed.Measured options := by
  rw [property_eq] at read
  obtain ⟨opening, -, read⟩ := ok_of_bind read
  obtain ⟨name, -, read⟩ := ok_of_bind read
  obtain ⟨dot, -, read⟩ := ok_of_bind read
  obtain ⟨qualifier, -, read⟩ := ok_of_bind read
  obtain ⟨closing, -, read⟩ := ok_of_bind read
  cases read
  exact measured_leaf rfl closing.rest deep

theorem measured_bareName {name : String} {source : σ} {parsed : Parsed σ}
    (deep : 0 < options.maxDepth) (read : bareName owner name source = .ok parsed) :
    parsed.Measured options := by
  obtain ⟨ahead, -, read⟩ := ok_of_bind read
  split at read
  · cases read
  · cases read
    exact measured_leaf rfl ahead.held deep

/-! ### What each reader hands on -/

variable (options owner)

/-- Whether a formula that is read is measured, and the token behind it declined. -/
def ExprHandsOn (depth least : Nat) (source : σ) : Prop :=
  ∀ parsed, expr options owner depth least source = .ok parsed →
    parsed.Measured options ∧ Keeps (Declines least) parsed.source

def InfixTailHandsOn (depth least : Nat) (chain : Parsed σ) : Prop :=
  chain.Measured options → ∀ parsed, infixTail options owner depth least chain = .ok parsed →
    parsed.Measured options ∧ Keeps (takesInfix least · = none) parsed.source

def ConditionalTailHandsOn (depth least : Nat) (condition : Parsed σ) : Prop :=
  condition.Measured options → Keeps (takesInfix least · = none) condition.source →
    ∀ parsed, conditionalTail options owner depth least condition = .ok parsed →
      parsed.Measured options ∧ Keeps (Declines least) parsed.source

def OperandHandsOn (depth : Nat) (source : σ) : Prop :=
  0 < options.maxDepth → ∀ parsed, operand options owner depth source = .ok parsed →
    parsed.Measured options

def ValueHandsOn (depth : Nat) (token : Token) (source : σ) : Prop :=
  0 < options.maxDepth → ∀ parsed, value options owner depth token source = .ok parsed →
    parsed.Measured options

variable {options owner}

theorem expr_handsOn {source : σ} (operands : OperandHandsOn options owner (depth + 1) source)
    (tails : ∀ chain : Parsed σ, left chain.source < left source →
      InfixTailHandsOn options owner (depth + 1) least chain ∧
        ConditionalTailHandsOn options owner (depth + 1) least chain) :
    ExprHandsOn options owner depth least source := by
  intro parsed read
  rw [expr_eq] at read
  split at read
  · cases read
  · rename_i shallow
    obtain ⟨first, readFirst, read⟩ := ok_of_bind read
    obtain ⟨chain, readChain, read⟩ := ok_of_bind read
    have below := left_of_operand readFirst
    have belowChain := left_of_infixTail readChain
    have measured := operands (by omega) first readFirst
    obtain ⟨measuredChain, noInfix⟩ := (tails first below).1 measured chain readChain
    exact (tails chain (by omega)).2 measuredChain noInfix parsed read

theorem infixTail_handsOn {chain : Parsed σ}
    (exprs : ∀ least (later : σ), left later < left chain.source →
      ExprHandsOn options owner depth least later)
    (tails : ∀ grown : Parsed σ, left grown.source < left chain.source →
      InfixTailHandsOn options owner depth least grown) :
    InfixTailHandsOn options owner depth least chain := by
  intro measured parsed read
  rw [infixTail_eq] at read
  obtain ⟨ahead, looked, read⟩ := ok_of_bind read
  split at read
  · rename_i none
    cases read
    exact ⟨measured, keeps_held looked none⟩
  · rename_i op taken
    have fewer := left_rest (lookahead_eq_ok.mp looked) (ne_endOfInput_of_takesInfix taken)
    obtain ⟨right, readRight, read⟩ := ok_of_bind read
    obtain ⟨grown, made, read⟩ := ok_of_bind read
    obtain ⟨⟨heightRight, -⟩, -⟩ := exprs _ _ fewer right readRight
    have below := left_of_expr readRight
    have source := congrArg left (source_of_node made)
    refine tails grown (by omega) (measured_node ?_ made) parsed read
    rw [Formula.height, measured.1, heightRight]

/-- Behind a first conditional there is no second one, because its last branch declines it. -/
theorem conditionalTail_handsOn {condition : Parsed σ}
    (exprs : ∀ least (later : σ), left later < left condition.source →
      ExprHandsOn options owner depth least later)
    (tails : ∀ grown : Parsed σ, left grown.source < left condition.source →
      ConditionalTailHandsOn options owner depth least grown) :
    ConditionalTailHandsOn options owner depth least condition := by
  intro measured noInfix parsed read
  rw [conditionalTail_eq] at read
  obtain ⟨ahead, looked, held, stops⟩ := noInfix.lookahead
  obtain ⟨ahead', looked', read⟩ := ok_of_bind read
  obtain rfl := Except.ok.inj (looked.symm.trans looked')
  split at read
  · rename_i taken
    have fewer := left_rest (lookahead_eq_ok.mp looked) (ne_endOfInput_of_takesConditional taken)
    obtain ⟨first, readFirst, read⟩ := ok_of_bind read
    obtain ⟨marker, marked, read⟩ := ok_of_bind read
    obtain ⟨second, readSecond, read⟩ := ok_of_bind read
    obtain ⟨grown, made, read⟩ := ok_of_bind read
    have below := left_of_expr readFirst
    have belowMarker := left_of_expect marked
    have belowSecond := left_of_expr readSecond
    have source := source_of_node made
    obtain ⟨⟨heightFirst, -⟩, -⟩ := exprs _ _ fewer first readFirst
    obtain ⟨⟨heightSecond, -⟩, kept⟩ := exprs _ _ (by omega) second readSecond
    obtain ⟨-, rfl⟩ := takesConditional_iff.mp taken
    refine tails grown (by rw [source]; omega) (measured_node ?_ made) ?_ parsed read
    · rw [Formula.height, measured.1, heightFirst, heightSecond]
    · rw [source]
      exact kept.mono fun _ => And.left
  · rename_i declined
    cases read
    exact ⟨measured, keeps_held looked ⟨stops, Bool.not_eq_true _ ▸ declined⟩⟩

theorem operand_handsOn {source : σ}
    (exprs : ∀ least (later : σ), left later < left source →
      ExprHandsOn options owner depth least later)
    (values : ∀ token (later : σ), left later < left source →
      ValueHandsOn options owner depth token later) :
    OperandHandsOn options owner depth source := by
  intro deep parsed read
  rw [operand_eq] at read
  obtain ⟨ahead, looked, read⟩ := ok_of_bind read
  have fewer := left_rest (lookahead_eq_ok.mp looked)
  obtain ⟨token, held, rest⟩ := ahead
  cases token with
  | symbol text =>
    have below := fewer Token.noConfusion
    dsimp only at read
    split at read
    · obtain ⟨inner, readInner, closed⟩ := ok_of_bind read
      exact measured_closeParenthesis (exprs _ _ below inner readInner).1 closed
    · split at read
      · obtain ⟨operand, readOperand, made⟩ := ok_of_bind read
        obtain ⟨⟨height, -⟩, -⟩ := exprs _ _ below operand readOperand
        exact measured_node (by rw [Formula.height, height]) made
      · cases read
  | number digits => exact values _ _ (fewer Token.noConfusion) deep parsed read
  | name name => exact values _ _ (fewer Token.noConfusion) deep parsed read
  | string | endOfInput => cases read

theorem value_handsOn {token : Token} {source : σ}
    (exprs : ∀ least (later : σ), left later < left source →
      ExprHandsOn options owner depth least later) :
    ValueHandsOn options owner depth token source := by
  intro deep parsed read
  rw [value_eq] at read
  cases token with
  | number digits => exact measured_number deep read
  | name name =>
    dsimp only at read
    split at read
    · exact measured_property deep read
    · split at read
      · obtain ⟨opening, opened, read⟩ := ok_of_bind read
        obtain ⟨first, readFirst, read⟩ := ok_of_bind read
        obtain ⟨comma, divided, read⟩ := ok_of_bind read
        obtain ⟨second, readSecond, read⟩ := ok_of_bind read
        obtain ⟨closing, -, made⟩ := ok_of_bind read
        have below := left_of_expect opened
        have belowFirst := left_of_expr readFirst
        have belowComma := left_of_expect divided
        obtain ⟨⟨heightFirst, -⟩, -⟩ := exprs _ _ below first readFirst
        obtain ⟨⟨heightSecond, -⟩, -⟩ := exprs _ _ (by omega) second readSecond
        exact measured_node (by rw [Formula.height, heightFirst, heightSecond]) made
      · exact measured_bareName deep read
  | symbol | string | endOfInput => cases read

theorem readers_handOn (options : Options) (owner : Owner) :
    (∀ depth least (source : σ), ExprHandsOn options owner depth least source) ∧
      (∀ depth least (chain : Parsed σ), InfixTailHandsOn options owner depth least chain) ∧
      (∀ depth least (condition : Parsed σ),
        ConditionalTailHandsOn options owner depth least condition) ∧
      (∀ depth (source : σ), OperandHandsOn options owner depth source) ∧
      ∀ depth token (source : σ), ValueHandsOn options owner depth token source := by
  refine readers_induction ?_ ?_ ?_ ?_ ?_
  · intro depth least source operands tails
    exact expr_handsOn (operands (depth + 1)) (tails (depth + 1) least)
  · intro depth least chain exprs tails
    exact infixTail_handsOn (exprs depth) tails
  · intro depth least condition exprs tails
    exact conditionalTail_handsOn (exprs depth) tails
  · intro depth source parts
    exact operand_handsOn (fun least later fewer => (parts depth least later fewer).1)
      fun token later fewer => (parts depth 0 later fewer).2 token
  · intro depth token source exprs
    exact value_handsOn (exprs depth)

/-! ### One conditional -/

/-- Reads one conditional behind its condition, if there is one, and goes no further. -/
def conditionalOnce (options : Options) (owner : Owner) (depth least : Nat) (condition : Parsed σ) :
    Except ParseError (Parsed σ) := do
  let ahead ← lookahead condition.source
  if takesConditional least ahead.token then
    let first ← expr options owner depth Conditional.operandLevel ahead.rest
    let marker ← expect .conditionalMarker first.source
    let second ← expr options owner depth Conditional.operandLevel marker.rest
    node options (.conditional condition.formula first.formula second.formula)
      (max (max condition.height first.height) second.height) second.source
  else .ok { condition with source := ahead.held }

theorem conditionalTail_of_keeps {parsed : Parsed σ}
    (keeps : Keeps (takesConditional least · = false) parsed.source) :
    conditionalTail options owner depth least parsed = .ok parsed := by
  obtain ⟨ahead, looked, held, declined⟩ := keeps.lookahead
  rw [conditionalTail_eq, looked]
  show (if takesConditional least ahead.token then _ else _) = _
  rw [if_neg (by rw [declined]; exact Bool.false_ne_true), held]

theorem bind_congr_ok {ε α β : Type} {x : Except ε α} {f g : α → Except ε β}
    (same : ∀ a, x = .ok a → f a = g a) : x >>= f = x >>= g := by
  cases x with
  | error => rfl
  | ok a => exact same a rfl

/-- The loop over conditionals has one turn at most. -/
theorem conditionalTail_eq_once (options : Options) (owner : Owner) (depth least : Nat)
    (condition : Parsed σ) : conditionalTail options owner depth least condition =
      conditionalOnce options owner depth least condition := by
  rw [conditionalTail_eq, conditionalOnce]
  refine bind_congr_ok fun ahead looked => ?_
  split
  · rename_i taken
    refine bind_congr_ok fun first _ => bind_congr_ok fun marker _ =>
      bind_congr_ok fun second readSecond => ?_
    obtain ⟨-, rfl⟩ := takesConditional_iff.mp taken
    have kept := ((readers_handOn options owner).1 _ _ _ second readSecond).2
    cases made : node options (.conditional condition.formula first.formula second.formula)
        (max (max condition.height first.height) second.height) second.source with
    | error fault => rfl
    | ok grown =>
      refine conditionalTail_of_keeps ?_
      rw [source_of_node made]
      exact kept.mono fun _ => And.right
  · rfl

theorem Lexer.peeked_of_keeps {described : Token → Prop} {lexer : Lexer}
    (keeps : Keeps described lexer) : ∃ token, lexer.peeked = some token ∧ described token := by
  obtain ⟨ahead, looked, held, holds⟩ := keeps
  have kept := (left_peek (look_eq_ok looked).1).1
  rw [held] at kept
  exact ⟨ahead.token, kept, holds⟩

/-- From every place in a text and at every level, a formula is read as by the reader that is told its
depth, and the counter of depth stands where it stood before, also behind a fault; it never went above
the limit. A formula that was read has its own height, within the limit, and the lexer keeps the next
token, which is neither an infix operator of the level nor, at the lowest level, a conditional. So no
second conditional follows a first one. -/
theorem exprCounting_restores_and_declines (options : Options) (owner : Owner) (least : Nat)
    (lexer : Lexer) (before : DepthCounter) (within : before.deepest ≤ options.maxDepth) :
    ∃ after, exprCounting options owner least lexer before =
        (expr options owner before.depth least lexer, after) ∧
      after.depth = before.depth ∧ after.deepest ≤ options.maxDepth ∧
      (∀ parsed, expr options owner before.depth least lexer = .ok parsed →
        parsed.height = parsed.formula.height ∧ parsed.height ≤ options.maxDepth ∧
        ∃ token, parsed.source.peeked = some token ∧
          (∀ op : InfixOp, token = .symbol op.symbol → op.precedence < least) ∧
          (least = 0 → token ≠ .symbol Conditional.symbol)) ∧
      ∀ condition : Parsed Lexer, conditionalTail options owner before.depth least condition =
        conditionalOnce options owner before.depth least condition := by
  have low := Nat.max_le.mpr
    ⟨within, reached_le (exprSteps options owner before.depth least lexer)⟩
  refine ⟨_, exprCounting_eq .., rfl, low, fun parsed read => ?_, conditionalTail_eq_once _ _ _ _⟩
  obtain ⟨⟨height, bounded⟩, keeps⟩ := (readers_handOn options owner).1 _ _ _ parsed read
  obtain ⟨token, kept, declined⟩ := Lexer.peeked_of_keeps keeps
  obtain ⟨noInfix, noConditional⟩ := declines_iff.mp declined
  refine ⟨height, bounded, token, kept, noInfix, ?_⟩
  rintro rfl same
  exact absurd (noConditional same) (Nat.lt_irrefl 0)

/-- Behind the last branch of `1?2:3?4:5` no conditional is left, and the counter is at 0 again. -/
theorem exprCounting_two_conditionals :
    ({} : DepthCounter).deepest ≤ ({} : Options).maxDepth ∧
      ∃ parsed after, exprCounting {} {} 0 (Lexer.ofText "1?2:3?4:5") {} = (.ok parsed, after) ∧
        after.depth = 0 ∧ parsed.height = parsed.formula.height ∧
        ∃ token, parsed.source.peeked = some token ∧ token ≠ .symbol Conditional.symbol := by
  have within : ({} : DepthCounter).deepest ≤ ({} : Options).maxDepth := Nat.zero_le _
  refine ⟨within, ?_⟩
  have spells : (Phrase.conditional (.number "1") (.number "2")
      (.conditional (.number "3") (.number "4") (.number "5"))).Spells "1?2:3?4:5" :=
    ⟨by decide, by decide, by decide +kernel⟩
  have accepted := parseFor_of_spells {} {} spells
  rw [if_pos (by decide)] at accepted
  obtain ⟨parsed, read, -⟩ :=
    ok_of_bind (x := expr {} {} 0 0 (Lexer.ofText "1?2:3?4:5")) accepted
  obtain ⟨after, run, restored, -, contract, -⟩ :=
    exprCounting_restores_and_declines {} {} 0 (Lexer.ofText "1?2:3?4:5") {} within
  obtain ⟨height, -, token, kept, -, noConditional⟩ := contract parsed read
  exact ⟨parsed, after, run.trans (congrArg (·, after) read), restored, height, token, kept,
    noConditional rfl⟩

end TableFormula
