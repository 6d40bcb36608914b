import TableFormula.Proofs.WholeFormula

/-!
Each formula around a place and each level of a tree takes a token, so that a text shorter than the
limit is never too deep.
-/

namespace TableFormula

open Text TokenSource

def Options.limitedTo (options : Options) (limit : Nat) : Options :=
  { options with maxDepth := limit }

def Parser.limitedTo (parser : Parser) (limit : Nat) : Parser :=
  { parser with options := parser.options.limitedTo limit }

section

variable {σ : Type} [TokenSource σ]

theorem look_alike (source : σ) :
    Refines (fun _ => False) (· = ·) (LookaheadAlike (· = ·)) (look source) (look source) := by
  cases look source with
  | error fault => exact .error rfl
  | ok ahead => exact .ok ⟨rfl, rfl, rfl⟩

theorem limit_simulation (options : Options) (owner : Owner) {limit limit' : Nat}
    (lower : limit ≤ limit') :
    ReaderSimulation (options.limitedTo limit) (options.limitedTo limit') owner owner
      (fun _ => False) (· = ·) (fun source source' : σ => source = source') (· = ·) where
  look same := same ▸ look_alike _
  allowUnclosedParens := rfl
  maxDepth := lower
  congruence := readerCongruence_eq owner

theorem readFormula_limitedTo (options : Options) (owner : Owner) (source : σ) {limit limit' : Nat}
    (lower : limit ≤ limit') :
    readFormula (options.limitedTo limit) owner source = .error (.tooDeep limit) ∨
      readFormula (options.limitedTo limit) owner source =
        readFormula (options.limitedTo limit') owner source := by
  have agrees := readFormula_simulates (limit_simulation options owner lower) rfl
    (rfl : source = source)
  exact agrees.eq_or_shallow.imp_left And.right

end

/-! ### A limit that no text reaches -/

/-- Whether a run does not end at the limit of depth, and ends in a result as described if it ends
in one. -/
def Unlimited {α : Type} (post : α → Prop) : Except ParseError α → Prop
  | .ok result => post result
  | .error fault => ∀ limit, fault ≠ .tooDeep limit

theorem Unlimited.bind {α β : Type} {post : α → Prop} {later : β → Prop} {x : Except ParseError α}
    {f : α → Except ParseError β} (h : Unlimited post x)
    (next : ∀ a, x = .ok a → post a → Unlimited later (f a)) : Unlimited later (x >>= f) := by
  cases x with
  | error fault => exact h
  | ok a => exact next a rfl h

theorem Unlimited.mono {α : Type} {post later : α → Prop} {x : Except ParseError α}
    (h : Unlimited post x) (weaker : ∀ a, post a → later a) : Unlimited later x := by
  cases x with
  | error fault => exact h
  | ok a => exact weaker a h

section

variable {σ : Type} [TokenSource σ] {options : Options} {owner : Owner} {depth least : Nat}

/-- Whether the height of a formula and the tokens behind it come to no more than the bound: a formula
is no higher than it has tokens. -/
abbrev Parsed.Spends (bound : Nat) (parsed : Parsed σ) : Prop :=
  parsed.height + left parsed.source ≤ bound

theorem unlimited_lookahead (source : σ) : Unlimited (fun _ => True) (lookahead source) := by
  unfold lookahead
  cases look source with
  | error fault => exact fun _ => by simp
  | ok ahead => trivial

theorem unlimited_expect (what : Expectation) (source : σ) :
    Unlimited (fun _ => True) (expect what source) := by
  unfold expect
  refine (unlimited_lookahead source).bind fun ahead _ _ => ?_
  split
  · trivial
  · exact fun _ => by simp

theorem unlimited_node {formula : Formula} {partHeight : Nat} {source : σ} (bound : Nat)
    (low : partHeight + 1 ≤ options.maxDepth) (spent : partHeight + 1 + left source ≤ bound) :
    Unlimited (Parsed.Spends bound) (node options formula partHeight source) := by
  unfold node
  rw [if_neg (by omega)]
  exact spent

theorem unlimited_closeParenthesis {inner : Parsed σ} {bound : Nat} (spent : inner.Spends bound) :
    Unlimited (Parsed.Spends bound) (closeParenthesis options inner) := by
  rw [closeParenthesis_eq]
  refine (unlimited_lookahead inner.source).bind fun ahead found _ => ?_
  have looked := lookahead_eq_ok.mp found
  split
  · rename_i closing
    have := left_rest looked (by rw [Token.isSymbol_iff.mp closing]; simp)
    show inner.height + left ahead.rest ≤ bound
    omega
  · split
    · have := left_held looked
      show inner.height + left ahead.held ≤ bound
      omega
    · exact fun _ => by simp

theorem unlimited_number (digits : String) (source : σ) :
    Unlimited (Parsed.Spends (left source + 1)) (number digits source) := by
  unfold number
  split
  · show 1 + left source ≤ left source + 1
    omega
  · exact fun _ => by simp

theorem unlimited_property (kind : String) (source : σ) :
    Unlimited (Parsed.Spends (left source + 1)) (property kind source) := by
  rw [property_eq]
  refine (unlimited_expect _ source).bind fun opening opened _ => ?_
  refine (unlimited_expect _ opening.rest).bind fun name named _ => ?_
  refine (unlimited_expect _ name.rest).bind fun dot dotted _ => ?_
  refine (unlimited_expect _ dot.rest).bind fun qualifier qualified _ => ?_
  refine (unlimited_expect _ qualifier.rest).bind fun closing closed _ => ?_
  have := left_of_expect opened
  have := left_of_expect named
  have := left_of_expect dotted
  have := left_of_expect qualified
  have := left_of_expect closed
  show 1 + left closing.rest ≤ left source + 1
  omega

theorem unlimited_bareName (name : String) (source : σ) :
    Unlimited (Parsed.Spends (left source + 1)) (bareName owner name source) := by
  unfold bareName
  refine (unlimited_lookahead source).bind fun ahead found _ => ?_
  split
  · exact fun _ => by simp
  · have := left_held (lookahead_eq_ok.mp found)
    show 1 + left ahead.held ≤ left source + 1
    omega

/-! ### The readers within a high limit -/

variable (options owner)

/-- Whether the readers find nothing too deep where the limit is above the depth and the tokens left. -/
def ExprUnlimited (depth least : Nat) (source : σ) : Prop :=
  depth + left source < options.maxDepth →
    Unlimited (Parsed.Spends (left source)) (expr options owner depth least source)

def TailUnlimited (tail : Parsed σ → Except ParseError (Parsed σ)) (depth : Nat) (part : Parsed σ) :
    Prop :=
  depth + left part.source ≤ options.maxDepth → part.height + left part.source ≤ options.maxDepth →
    Unlimited (Parsed.Spends (part.height + left part.source)) (tail part)

def OperandUnlimited (depth : Nat) (source : σ) : Prop :=
  depth + left source ≤ options.maxDepth →
    Unlimited (Parsed.Spends (left source)) (operand options owner depth source)

def ValueUnlimited (depth : Nat) (token : Token) (source : σ) : Prop :=
  depth + left source < options.maxDepth →
    Unlimited (Parsed.Spends (left source + 1)) (value options owner depth token source)

variable {options owner} {source : σ}

theorem expr_unlimited (operands : OperandUnlimited options owner (depth + 1) source)
    (tails : ∀ chain : Parsed σ, left chain.source < left source →
      TailUnlimited options (infixTail options owner (depth + 1) least) (depth + 1) chain ∧
        TailUnlimited options (conditionalTail options owner (depth + 1) least) (depth + 1) chain) :
    ExprUnlimited options owner depth least source := by
  intro high
  rw [expr_eq, if_neg (by omega)]
  refine (operands (by omega)).bind fun first read spent => ?_
  have fewer := left_of_operand read
  refine ((tails first fewer).1 (by omega) (by omega)).bind fun chain grown spentChain => ?_
  have fewer' := left_of_infixTail grown
  exact ((tails chain (by omega)).2 (by omega) (by omega)).mono fun whole spent => by omega

theorem infixTail_unlimited {chain : Parsed σ}
    (exprs : ∀ least (later : σ), left later < left chain.source →
      ExprUnlimited options owner depth least later)
    (tails : ∀ grown : Parsed σ, left grown.source < left chain.source →
      TailUnlimited options (infixTail options owner depth least) depth grown) :
    TailUnlimited options (infixTail options owner depth least) depth chain := by
  intro high low
  rw [infixTail_eq]
  refine (unlimited_lookahead chain.source).bind fun ahead found _ => ?_
  have looked := lookahead_eq_ok.mp found
  cases taken : takesInfix least ahead.token with
  | none => exact Nat.add_le_add_left (left_held looked) _
  | some op =>
    have fewer := left_rest looked (ne_endOfInput_of_takesInfix taken)
    refine (exprs _ _ fewer (by omega)).bind fun right read spentRight => ?_
    have := left_of_expr read
    refine (unlimited_node (chain.height + left chain.source) (by omega)
      (by omega)).bind fun grown made spentGrown => ?_
    have source := source_of_node made
    exact (tails grown (by rw [source]; omega) (by rw [source]; omega) (by omega)).mono
      fun whole spent => by omega

theorem conditionalTail_unlimited {condition : Parsed σ}
    (exprs : ∀ least (later : σ), left later < left condition.source →
      ExprUnlimited options owner depth least later)
    (tails : ∀ grown : Parsed σ, left grown.source < left condition.source →
      TailUnlimited options (conditionalTail options owner depth least) depth grown) :
    TailUnlimited options (conditionalTail options owner depth least) depth condition := by
  intro high low
  rw [conditionalTail_eq]
  refine (unlimited_lookahead condition.source).bind fun ahead found _ => ?_
  have looked := lookahead_eq_ok.mp found
  split
  · rename_i taken
    have fewer := left_rest looked (ne_endOfInput_of_takesConditional taken)
    refine (exprs _ _ fewer (by omega)).bind fun first read spentFirst => ?_
    have := left_of_expr read
    refine (unlimited_expect _ first.source).bind fun marker marked _ => ?_
    have := left_of_expect marked
    refine (exprs _ _ (by omega) (by omega)).bind fun second read spentSecond => ?_
    have := left_of_expr read
    refine (unlimited_node (condition.height + left condition.source) (by omega)
      (by omega)).bind fun grown made spentGrown => ?_
    have source := source_of_node made
    exact (tails grown (by rw [source]; omega) (by rw [source]; omega) (by omega)).mono
      fun whole spent => by omega
  · exact Nat.add_le_add_left (left_held looked) _

theorem operand_unlimited
    (exprs : ∀ least (later : σ), left later < left source →
      ExprUnlimited options owner depth least later)
    (values : ∀ token (later : σ), left later < left source →
      ValueUnlimited options owner depth token later) :
    OperandUnlimited options owner depth source := by
  intro high
  rw [operand_eq]
  refine (unlimited_lookahead source).bind fun ahead found _ => ?_
  have fewer := left_rest (lookahead_eq_ok.mp found)
  cases start : ahead.token with
  | symbol text =>
    have fewer := fewer (by rw [start]; simp)
    dsimp only
    by_cases opening : text = "("
    · rw [if_pos opening]
      refine (exprs _ _ fewer (by omega)).bind fun inner _ spent => ?_
      exact unlimited_closeParenthesis (by omega)
    · rw [if_neg opening]
      cases PrefixOp.ofSymbol? text with
      | none => exact fun _ => by simp
      | some op =>
        refine (exprs _ _ fewer (by omega)).bind fun inner _ spent => ?_
        exact unlimited_node _ (by omega) (by omega)
  | number digits =>
    have fewer := fewer (by rw [start]; simp)
    exact (values _ _ fewer (by omega)).mono fun parsed spent => by omega
  | name name =>
    have fewer := fewer (by rw [start]; simp)
    exact (values _ _ fewer (by omega)).mono fun parsed spent => by omega
  | string | endOfInput => exact fun _ => by simp

theorem value_unlimited {token : Token}
    (exprs : ∀ least (later : σ), left later < left source →
      ExprUnlimited options owner depth least later) :
    ValueUnlimited options owner depth token source := by
  intro high
  rw [value_eq]
  cases token with
  | number digits => exact unlimited_number digits source
  | name name =>
    dsimp only
    by_cases kind : isPropertyKind name = true
    · rw [if_pos kind]
      exact unlimited_property name source
    · rw [if_neg kind]
      cases Builtin.ofSymbol? name with
      | none => exact unlimited_bareName name source
      | some fn =>
        refine (unlimited_expect _ source).bind fun opening opened _ => ?_
        have := left_of_expect opened
        refine (exprs _ _ (by omega) (by omega)).bind fun first read spentFirst => ?_
        have := left_of_expr read
        refine (unlimited_expect _ first.source).bind fun comma divided _ => ?_
        have := left_of_expect divided
        refine (exprs _ _ (by omega) (by omega)).bind fun second read spentSecond => ?_
        have := left_of_expr read
        refine (unlimited_expect _ second.source).bind fun closing closed _ => ?_
        have := left_of_expect closed
        exact unlimited_node _ (by omega) (by omega)
  | symbol | string | endOfInput => exact fun _ => by simp

theorem readers_unlimited (options : Options) (owner : Owner) :
    (∀ depth least (source : σ), ExprUnlimited options owner depth least source) ∧
      (∀ depth least (chain : Parsed σ),
        TailUnlimited options (infixTail options owner depth least) depth chain) ∧
      (∀ depth least (condition : Parsed σ),
        TailUnlimited options (conditionalTail options owner depth least) depth condition) ∧
      (∀ depth (source : σ), OperandUnlimited options owner depth source) ∧
      ∀ depth token (source : σ), ValueUnlimited options owner depth token source := by
  refine readers_induction ?_ ?_ ?_ ?_ ?_
  · intro depth least source operands tails
    exact expr_unlimited (operands (depth + 1)) (tails (depth + 1) least)
  · intro depth least chain exprs tails
    exact infixTail_unlimited (exprs depth) tails
  · intro depth least condition exprs tails
    exact conditionalTail_unlimited (exprs depth) tails
  · intro depth source parts
    exact operand_unlimited (fun least later fewer => (parts depth least later fewer).1)
      fun token later fewer => (parts depth 0 later fewer).2 token
  · intro depth token source exprs
    exact value_unlimited (exprs depth)

theorem readFormula_ne_tooDeep (few : left source < options.maxDepth) (limit : Nat) :
    readFormula options owner source ≠ .error (.tooDeep limit) := by
  have unlimited : Unlimited (fun _ => True) (readFormula options owner source) := by
    unfold readFormula
    refine ((readers_unlimited options owner).1 0 0 source (by omega)).bind fun parsed _ _ => ?_
    split
    · refine (unlimited_lookahead parsed.source).bind fun ahead _ _ => ?_
      split
      · trivial
      · exact fun _ => by simp
    · trivial
  intro tooDeep
  rw [tooDeep] at unlimited
  exact unlimited limit rfl

end

/-- A lower limit of depth makes a text too deep or changes nothing, and a limit above the length of
the text changes nothing at all. -/
theorem parseFor_limitedTo (parser : Parser) (owner : Owner) (text : String) {limit limit' : Nat}
    (lower : limit ≤ limit') :
    ((parser.limitedTo limit).parseFor owner text = .error (.tooDeep limit) ∨
      (parser.limitedTo limit).parseFor owner text =
        (parser.limitedTo limit').parseFor owner text) ∧
    (byteSize (trim text.toList) < limit →
      ∀ other, (parser.limitedTo limit).parseFor owner text ≠ .error (.tooDeep other)) := by
  cases blank : text.toList.all isBlank with
  | true =>
    rw [parseFor_blank _ _ blank, parseFor_blank _ _ blank]
    exact ⟨.inr rfl, fun _ _ => nofun⟩
  | false =>
    rw [parseFor_eq_readFormula _ _ blank, parseFor_eq_readFormula _ _ blank]
    refine ⟨readFormula_limitedTo parser.options owner _ lower, fun long other => ?_⟩
    have few := TokenStream.length_tokens_le 0 (trim text.toList)
    have bytes := length_le_byteSize (trim text.toList)
    exact readFormula_ne_tooDeep (Nat.lt_of_le_of_lt (Nat.le_trans few bytes) long) other

/-- The text `1 2` has no more than three tokens, and is refused with every limit from four on. -/
theorem parseFor_limitedTo_pair :
    (({} : Parser).limitedTo 4).parseFor {} "1 2" =
      (({} : Parser).limitedTo 128).parseFor {} "1 2" := by
  obtain ⟨same, shallow⟩ := parseFor_limitedTo {} {} "1 2" (show 4 ≤ 128 by decide)
  exact same.resolve_left (shallow (by decide) 4)

end TableFormula
