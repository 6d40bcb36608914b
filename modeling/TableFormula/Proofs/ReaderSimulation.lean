import TableFormula.Parser
import TableFormula.Proofs.ReaderInduction

/-!
Two runs over sources that show the same tokens go the same way: they end in the same fault, or in
formulas that differ in their bare names at most. Their lexical faults may differ, as those of two
texts do, and the first run may stop alone, at a lower limit of depth or where only its own source is
broken.
-/

namespace TableFormula

open TokenSource

/-! ### Results that agree -/

/-- Whether a run ends as another: in related faults or with related results. A run that ends in a
fault of `escape` says nothing about the other. -/
inductive Refines {ε α β : Type} (escape : ε → Prop) (faults : ε → ε → Prop)
    (related : α → β → Prop) : Except ε α → Except ε β → Prop where
  | escaped {fault : ε} (other : Except ε β) :
      escape fault → Refines escape faults related (.error fault) other
  | error {fault fault' : ε} :
      faults fault fault' → Refines escape faults related (.error fault) (.error fault')
  | ok {a : α} {b : β} : related a b → Refines escape faults related (.ok a) (.ok b)

theorem Refines.bind {ε α β γ δ : Type} {escape : ε → Prop} {faults : ε → ε → Prop}
    {related : α → β → Prop} {later : γ → δ → Prop} {x : Except ε α} {y : Except ε β}
    {f : α → Except ε γ} {g : β → Except ε δ} (h : Refines escape faults related x y)
    (next : ∀ a b, x = .ok a → related a b → Refines escape faults later (f a) (g b)) :
    Refines escape faults later (x >>= f) (y >>= g) := by
  cases h with
  | escaped other stopped => exact .escaped _ stopped
  | error alike => exact .error alike
  | ok alike => exact next _ _ rfl alike

theorem Refines.mono {ε α β : Type} {escape : ε → Prop} {faults : ε → ε → Prop}
    {related later : α → β → Prop} {x : Except ε α} {y : Except ε β}
    (h : Refines escape faults related x y) (weaker : ∀ a b, related a b → later a b) :
    Refines escape faults later x y := by
  cases h with
  | escaped other stopped => exact .escaped _ stopped
  | error alike => exact .error alike
  | ok alike => exact .ok (weaker _ _ alike)

/-- The lexical fault that is reported, if it is one. -/
def ParseError.lexical? : ParseError → Option LexFault
  | lexical fault => some fault
  | _ => none

/-- Whether two faults are the same but for lexical faults, which are related. -/
inductive FaultAlike (faults : LexFault → LexFault → Prop) : ParseError → ParseError → Prop where
  | lexical {fault fault' : LexFault} :
      faults fault fault' → FaultAlike faults (.lexical fault) (.lexical fault')
  | syntactic {fault : ParseError} : fault.lexical? = none → FaultAlike faults fault fault

/-- The faults in which the first run may end alone: at its own limit, if that is lower, or where its
source is broken. -/
inductive EscapeFault (limit limit' : Nat) (broken : LexFault → Prop) : ParseError → Prop where
  | shallow : limit < limit' → EscapeFault limit limit' broken (.tooDeep limit)
  | lexical {fault : LexFault} : broken fault → EscapeFault limit limit' broken (.lexical fault)

/-! ### Sources and formulas that agree -/

section

variable {σ τ : Type}

structure LookaheadAlike (sources : σ → τ → Prop) (a : Lookahead σ) (b : Lookahead τ) : Prop where
  token : a.token = b.token
  held : sources a.held b.held
  rest : sources a.rest b.rest

structure ParsedAlike (sources : σ → τ → Prop) (formulas : Formula → Formula → Prop) (a : Parsed σ)
    (b : Parsed τ) : Prop where
  formula : formulas a.formula b.formula
  height : a.height = b.height
  source : sources a.source b.source

/-- A relation between formulas that the readers keep: they build related formulas from related
parts, and the bare names of the two owners are related. -/
structure ReaderCongruence (owner owner' : Owner) (formulas : Formula → Formula → Prop) : Prop where
  constant (value : Int64) : formulas (.constant value) (.constant value)
  property (reference : Reference) : formulas (.property reference) (.property reference)
  bare (name : String) :
    formulas (.property (owner.reference name)) (.property (owner'.reference name))
  unary (op : PrefixOp) {a b : Formula} : formulas a b → formulas (.unary op a) (.unary op b)
  binary (op : BinaryOp) {a b c d : Formula} :
    formulas a b → formulas c d → formulas (.binary op a c) (.binary op b d)
  conditional {a b c d e f : Formula} : formulas a b → formulas c d → formulas e f →
    formulas (.conditional a c e) (.conditional b d f)

theorem readerCongruence_eq (owner : Owner) : ReaderCongruence owner owner (· = ·) where
  constant _ := rfl
  property _ := rfl
  bare _ := rfl
  unary _ _ _ same := by rw [same]
  binary _ _ _ _ _ left right := by rw [left, right]
  conditional condition first second := by rw [condition, first, second]

variable [TokenSource σ] [TokenSource τ]

structure ReaderSimulation (options options' : Options) (owner owner' : Owner)
    (broken : LexFault → Prop) (faults : LexFault → LexFault → Prop) (sources : σ → τ → Prop)
    (formulas : Formula → Formula → Prop) : Prop where
  look {source : σ} {source' : τ} : sources source source' →
    Refines broken faults (LookaheadAlike sources) (look source) (look source')
  allowUnclosedParens : options.allowUnclosedParens = options'.allowUnclosedParens
  maxDepth : options.maxDepth ≤ options'.maxDepth
  congruence : ReaderCongruence owner owner' formulas

/-- Whether the first of two runs ends as the second, or where it may end alone. -/
abbrev Agrees {α β : Type} (options options' : Options) (broken : LexFault → Prop)
    (faults : LexFault → LexFault → Prop) (related : α → β → Prop) :
    Except ParseError α → Except ParseError β → Prop :=
  Refines (EscapeFault options.maxDepth options'.maxDepth broken) (FaultAlike faults) related

/-- Runs over sources that are broken in the same way differ by the limit of depth at most. -/
theorem Agrees.eq_or_shallow {α : Type} {options options' : Options} {x y : Except ParseError α}
    (h : Agrees options options' (fun _ => False) (· = ·) (· = ·) x y) :
    options.maxDepth < options'.maxDepth ∧ x = .error (.tooDeep options.maxDepth) ∨ x = y := by
  cases h with
  | escaped other stopped =>
    cases stopped with
    | shallow low => exact .inl ⟨low, rfl⟩
    | lexical broken => exact broken.elim
  | error alike =>
    cases alike with
    | lexical same => exact .inr (by rw [same])
    | syntactic => exact .inr rfl
  | ok same => exact .inr (by rw [same])

theorem Agrees.error_of_error {α β : Type} {options : Options} {related : α → β → Prop}
    {x : Except ParseError α} {y : Except ParseError β} {fault : ParseError}
    (h : Agrees options options (fun _ => False) (· = ·) related x y) (failed : x = .error fault) :
    y = .error fault := by
  subst failed
  cases h with
  | escaped other stopped =>
    cases stopped with
    | shallow low => exact absurd low (Nat.lt_irrefl _)
    | lexical broken => exact broken.elim
  | error alike =>
    cases alike with
    | lexical same => rw [same]
    | syntactic => rfl

/-- Runs with one limit end in lexical faults or alike. -/
theorem Agrees.lexical_or_eq {α : Type} {options : Options} {broken : LexFault → Prop}
    {faults : LexFault → LexFault → Prop} {x y : Except ParseError α}
    (h : Agrees options options broken faults (· = ·) x y) :
    (∃ fault, broken fault ∧ x = .error (.lexical fault)) ∨
      (∃ fault fault', faults fault fault' ∧ x = .error (.lexical fault) ∧
        y = .error (.lexical fault')) ∨
      x = y ∧ ∀ fault, x ≠ .error (.lexical fault) := by
  cases h with
  | escaped other stopped =>
    cases stopped with
    | shallow low => exact absurd low (Nat.lt_irrefl _)
    | lexical broken => exact .inl ⟨_, broken, rfl⟩
  | error alike =>
    cases alike with
    | lexical related => exact .inr (.inl ⟨_, _, related, rfl, rfl⟩)
    | syntactic proper =>
      refine .inr (.inr ⟨rfl, fun fault same => ?_⟩)
      cases same
      cases proper
  | ok same => exact .inr (.inr ⟨by rw [same], fun _ same => nomatch same⟩)

end

/-! ### The readers without recursion -/

section

variable {σ τ : Type} [TokenSource σ] [TokenSource τ] {options options' : Options}
  {owner owner' : Owner} {broken : LexFault → Prop} {faults : LexFault → LexFault → Prop}
  {sources : σ → τ → Prop} {formulas : Formula → Formula → Prop}
  {source : σ} {source' : τ}

namespace ReaderSimulation

variable (sim : ReaderSimulation options options' owner owner' broken faults sources formulas)
include sim

theorem lookahead (alike : sources source source') :
    Agrees options options' broken faults (LookaheadAlike sources) (lookahead source)
      (lookahead source') := by
  have looked := sim.look alike
  unfold TableFormula.lookahead
  generalize TokenSource.look source = x at looked ⊢
  generalize TokenSource.look source' = y at looked ⊢
  cases looked with
  | escaped other stopped => exact .escaped _ (.lexical stopped)
  | error alike => exact .error (.lexical alike)
  | ok alike => exact .ok alike

theorem expect (what : Expectation) (alike : sources source source') :
    Agrees options options' broken faults (LookaheadAlike sources) (expect what source)
      (expect what source') := by
  unfold TableFormula.expect
  refine (sim.lookahead alike).bind fun a b _ same => ?_
  rw [← same.token]
  split
  · exact .ok same
  · exact .error (.syntactic rfl)

theorem node {formula formula' : Formula} (partHeight : Nat) (same : formulas formula formula')
    (alike : sources source source') :
    Agrees options options' broken faults (ParsedAlike sources formulas)
      (node options formula partHeight source) (node options' formula' partHeight source') := by
  have depth := sim.maxDepth
  unfold TableFormula.node
  by_cases low : options.maxDepth < options'.maxDepth
  · split
    · exact .escaped _ (.shallow low)
    · rw [if_neg (by omega)]
      exact .ok ⟨same, rfl, alike⟩
  · rw [show options'.maxDepth = options.maxDepth by omega]
    split
    · exact .error (.syntactic rfl)
    · exact .ok ⟨same, rfl, alike⟩

theorem closeParenthesis {inner : Parsed σ} {inner' : Parsed τ}
    (alike : ParsedAlike sources formulas inner inner') :
    Agrees options options' broken faults (ParsedAlike sources formulas)
      (closeParenthesis options inner) (closeParenthesis options' inner') := by
  rw [closeParenthesis_eq, closeParenthesis_eq]
  refine (sim.lookahead alike.source).bind fun a b _ same => ?_
  rw [← same.token, ← sim.allowUnclosedParens]
  split
  · exact .ok ⟨alike.formula, alike.height, same.rest⟩
  · split
    · exact .ok ⟨alike.formula, alike.height, same.held⟩
    · exact .error (.syntactic rfl)

theorem number (digits : String) (alike : sources source source') :
    Agrees options options' broken faults (ParsedAlike sources formulas) (number digits source)
      (number digits source') := by
  unfold TableFormula.number
  split
  · exact .ok ⟨sim.congruence.constant _, rfl, alike⟩
  · exact .error (.syntactic rfl)

theorem property (kind : String) (alike : sources source source') :
    Agrees options options' broken faults (ParsedAlike sources formulas) (property kind source)
      (property kind source') := by
  rw [property_eq, property_eq]
  refine (sim.expect _ alike).bind fun opening opening' _ opened => ?_
  refine (sim.expect _ opened.rest).bind fun name name' _ named => ?_
  refine (sim.expect _ named.rest).bind fun dot dot' _ dotted => ?_
  refine (sim.expect _ dotted.rest).bind fun qualifier qualifier' _ qualified => ?_
  refine (sim.expect _ qualified.rest).bind fun closing closing' _ closed => ?_
  rw [← named.token, ← qualified.token]
  exact .ok ⟨sim.congruence.property _, rfl, closed.rest⟩

theorem bareName (name : String) (alike : sources source source') :
    Agrees options options' broken faults (ParsedAlike sources formulas)
      (bareName owner name source) (bareName owner' name source') := by
  unfold TableFormula.bareName
  refine (sim.lookahead alike).bind fun a b _ same => ?_
  rw [← same.token]
  split
  · exact .error (.syntactic rfl)
  · exact .ok ⟨sim.congruence.bare name, rfl, same.held⟩

/-! ### The readers -/

/-- Whether two runs of a reader over related sources go the same way. -/
def OnExpr (_ : ReaderSimulation options options' owner owner' broken faults sources formulas)
    (depth least : Nat) (source : σ) : Prop :=
  ∀ source', sources source source' →
    Agrees options options' broken faults (ParsedAlike sources formulas)
      (expr options owner depth least source) (expr options' owner' depth least source')

def OnInfixTail (_ : ReaderSimulation options options' owner owner' broken faults sources formulas)
    (depth least : Nat) (chain : Parsed σ) : Prop :=
  ∀ chain', ParsedAlike sources formulas chain chain' →
    Agrees options options' broken faults (ParsedAlike sources formulas)
      (infixTail options owner depth least chain) (infixTail options' owner' depth least chain')

def OnConditionalTail
    (_ : ReaderSimulation options options' owner owner' broken faults sources formulas)
    (depth least : Nat) (condition : Parsed σ) : Prop :=
  ∀ condition', ParsedAlike sources formulas condition condition' →
    Agrees options options' broken faults (ParsedAlike sources formulas)
      (conditionalTail options owner depth least condition)
      (conditionalTail options' owner' depth least condition')

def OnOperand (_ : ReaderSimulation options options' owner owner' broken faults sources formulas)
    (depth : Nat) (source : σ) : Prop :=
  ∀ source', sources source source' →
    Agrees options options' broken faults (ParsedAlike sources formulas)
      (operand options owner depth source) (operand options' owner' depth source')

def OnValue (_ : ReaderSimulation options options' owner owner' broken faults sources formulas)
    (depth : Nat) (token : Token) (source : σ) : Prop :=
  ∀ source', sources source source' →
    Agrees options options' broken faults (ParsedAlike sources formulas)
      (value options owner depth token source) (value options' owner' depth token source')

variable {depth least : Nat}

theorem onExpr (operands : sim.OnOperand (depth + 1) source)
    (tails : ∀ chain : Parsed σ, left chain.source < left source →
      sim.OnInfixTail (depth + 1) least chain ∧ sim.OnConditionalTail (depth + 1) least chain) :
    sim.OnExpr depth least source := by
  intro source' alike
  have depthBound := sim.maxDepth
  rw [expr_eq, expr_eq]
  by_cases limit : options.maxDepth ≤ depth
  · rw [if_pos limit]
    by_cases low : options.maxDepth < options'.maxDepth
    · exact .escaped _ (.shallow low)
    · rw [if_pos (by omega), show options'.maxDepth = options.maxDepth by omega]
      exact .error (.syntactic rfl)
  · rw [if_neg limit, if_neg (by omega)]
    refine (operands source' alike).bind fun first first' read alike => ?_
    have shorter := left_of_operand read
    refine ((tails first shorter).1 first' alike).bind fun chain chain' grown alike => ?_
    have := left_of_infixTail grown
    exact (tails chain (by omega)).2 chain' alike

theorem onInfixTail {chain : Parsed σ}
    (exprs : ∀ least (later : σ), left later < left chain.source → sim.OnExpr depth least later)
    (tails : ∀ grown : Parsed σ, left grown.source < left chain.source →
      sim.OnInfixTail depth least grown) : sim.OnInfixTail depth least chain := by
  intro chain' alike
  rw [infixTail_eq, infixTail_eq]
  refine (sim.lookahead alike.source).bind fun ahead ahead' found same => ?_
  rw [← same.token]
  cases taken : takesInfix least ahead.token with
  | none => exact .ok ⟨alike.formula, alike.height, same.held⟩
  | some op =>
    have fewer := left_rest (lookahead_eq_ok.mp found) (ne_endOfInput_of_takesInfix taken)
    refine (exprs _ _ fewer _ same.rest).bind fun right right' read alikeRight => ?_
    rw [← alike.height, ← alikeRight.height]
    refine (sim.node _ (sim.congruence.binary _ alike.formula alikeRight.formula)
      alikeRight.source).bind fun grown grown' made alikeGrown => ?_
    have := left_of_expr read
    have := source_of_node made
    exact tails grown (by rw [this]; omega) grown' alikeGrown

theorem onConditionalTail {condition : Parsed σ}
    (exprs : ∀ least (later : σ), left later < left condition.source →
      sim.OnExpr depth least later)
    (tails : ∀ grown : Parsed σ, left grown.source < left condition.source →
      sim.OnConditionalTail depth least grown) : sim.OnConditionalTail depth least condition := by
  intro condition' alike
  rw [conditionalTail_eq, conditionalTail_eq]
  refine (sim.lookahead alike.source).bind fun ahead ahead' found same => ?_
  rw [← same.token]
  by_cases taken : takesConditional least ahead.token = true
  · rw [if_pos taken, if_pos taken]
    have fewer := left_rest (lookahead_eq_ok.mp found) (ne_endOfInput_of_takesConditional taken)
    refine (exprs _ _ fewer _ same.rest).bind fun first first' read alikeFirst => ?_
    have := left_of_expr read
    refine (sim.expect _ alikeFirst.source).bind fun marker marker' marked sameMarker => ?_
    have := left_of_expect marked
    refine (exprs _ _ (by omega) _ sameMarker.rest).bind fun second second' read alikeSecond => ?_
    rw [← alike.height, ← alikeFirst.height, ← alikeSecond.height]
    refine (sim.node _ (sim.congruence.conditional alike.formula alikeFirst.formula
      alikeSecond.formula) alikeSecond.source).bind fun grown grown' made alikeGrown => ?_
    have := left_of_expr read
    have := source_of_node made
    exact tails grown (by rw [this]; omega) grown' alikeGrown
  · rw [if_neg taken, if_neg taken]
    exact .ok ⟨alike.formula, alike.height, same.held⟩

theorem onOperand
    (exprs : ∀ least (later : σ), left later < left source → sim.OnExpr depth least later)
    (values : ∀ token (later : σ), left later < left source → sim.OnValue depth token later) :
    sim.OnOperand depth source := by
  intro source' alike
  rw [operand_eq, operand_eq]
  refine (sim.lookahead alike).bind fun ahead ahead' found same => ?_
  rw [← same.token]
  have fewer := left_rest (lookahead_eq_ok.mp found)
  cases start : ahead.token with
  | symbol text =>
    have fewer := fewer (by rw [start]; simp)
    dsimp only
    by_cases opening : text = "("
    · rw [if_pos opening, if_pos opening]
      refine (exprs _ _ fewer _ same.rest).bind fun inner inner' _ alikeInner => ?_
      exact sim.closeParenthesis alikeInner
    · rw [if_neg opening, if_neg opening]
      cases PrefixOp.ofSymbol? text with
      | none => exact .error (.syntactic rfl)
      | some op =>
        refine (exprs _ _ fewer _ same.rest).bind fun inner inner' _ alikeInner => ?_
        rw [← alikeInner.height]
        exact sim.node _ (sim.congruence.unary _ alikeInner.formula) alikeInner.source
  | number digits => exact values _ _ (fewer (by rw [start]; simp)) _ same.rest
  | name name => exact values _ _ (fewer (by rw [start]; simp)) _ same.rest
  | string | endOfInput => exact .error (.syntactic rfl)

theorem onValue {token : Token}
    (exprs : ∀ least (later : σ), left later < left source → sim.OnExpr depth least later) :
    sim.OnValue depth token source := by
  intro source' alike
  rw [value_eq, value_eq]
  cases token with
  | number digits => exact sim.number digits alike
  | name name =>
    dsimp only
    by_cases kind : isPropertyKind name = true
    · rw [if_pos kind, if_pos kind]
      exact sim.property name alike
    · rw [if_neg kind, if_neg kind]
      cases Builtin.ofSymbol? name with
      | none => exact sim.bareName name alike
      | some fn =>
        refine (sim.expect _ alike).bind fun opening opening' opened sameOpening => ?_
        have := left_of_expect opened
        refine (exprs _ _ (by omega) _ sameOpening.rest).bind fun first first' read alikeFirst => ?_
        have := left_of_expr read
        refine (sim.expect _ alikeFirst.source).bind fun comma comma' divided sameComma => ?_
        have := left_of_expect divided
        refine (exprs _ _ (by omega) _ sameComma.rest).bind fun second second' _ alikeSecond => ?_
        refine (sim.expect _ alikeSecond.source).bind fun closing closing' _ sameClosing => ?_
        rw [← alikeFirst.height, ← alikeSecond.height]
        exact sim.node _ (sim.congruence.binary _ alikeFirst.formula alikeSecond.formula)
          sameClosing.rest
  | symbol | string | endOfInput => exact .error (.syntactic rfl)

theorem readers :
    (∀ depth least source, sim.OnExpr depth least source) ∧
      (∀ depth least chain, sim.OnInfixTail depth least chain) ∧
      (∀ depth least condition, sim.OnConditionalTail depth least condition) ∧
      (∀ depth source, sim.OnOperand depth source) ∧
      ∀ depth token source, sim.OnValue depth token source := by
  refine readers_induction ?_ ?_ ?_ ?_ ?_
  · intro depth least source operands tails
    exact sim.onExpr (operands (depth + 1)) (tails (depth + 1) least)
  · intro depth least chain exprs tails
    exact sim.onInfixTail (exprs depth) tails
  · intro depth least condition exprs tails
    exact sim.onConditionalTail (exprs depth) tails
  · intro depth source parts
    exact sim.onOperand (fun least later fewer => (parts depth least later fewer).1)
      fun token later fewer => (parts depth 0 later fewer).2 token
  · intro depth token source exprs
    exact sim.onValue (exprs depth)

end ReaderSimulation

theorem readFormula_simulates
    (sim : ReaderSimulation options options' owner owner' broken faults sources formulas)
    (trailing : options.rejectTrailing = options'.rejectTrailing) (alike : sources source source') :
    Agrees options options' broken faults formulas (readFormula options owner source)
      (readFormula options' owner' source') := by
  unfold readFormula
  refine (sim.readers.1 0 0 source source' alike).bind fun parsed parsed' _ same => ?_
  rw [← trailing]
  split
  · refine (sim.lookahead same.source).bind fun ahead ahead' _ sameAhead => ?_
    rw [← sameAhead.token]
    split
    · exact .ok same.formula
    · exact .error (.syntactic rfl)
  · exact .ok same.formula

/-- One reading over two sources that show the same tokens. -/
theorem readFormula_agrees (options : Options) (owner : Owner)
    (looks : ∀ {source : σ} {source' : τ}, sources source source' →
      Refines broken faults (LookaheadAlike sources) (look source) (look source'))
    (alike : sources source source') :
    Agrees options options broken faults (· = ·) (readFormula options owner source)
      (readFormula options owner source') :=
  readFormula_simulates ⟨looks, rfl, Nat.le_refl _, readerCongruence_eq owner⟩ rfl alike

end

end TableFormula
