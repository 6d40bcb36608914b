import TableFormula.Phrase.Grouping

/-!
`Reads` says which phrase the readers find at the beginning of a list of tokens, and which tokens they
leave. Its rules follow the readers step by step, but build phrases, which keep the parentheses, and
know no limit of depth.
-/

namespace TableFormula

def nextToken (tokens : List Token) : Token := tokens.headD .endOfInput

@[simp] theorem nextToken_cons (token : Token) (tokens : List Token) :
    nextToken (token :: tokens) = token := rfl

@[simp] theorem nextToken_nil : nextToken [] = .endOfInput := rfl

/-- The places in which a phrase is read. In a tail, a phrase is there already, and what stands behind
it may belong to it. -/
inductive Place where
  | formula (least : Nat)
  | infixTail (least : Nat) (chain : Phrase)
  | conditionalTail (least : Nat) (condition : Phrase)
  | operand

/-- What is read in a place, and what is left. If `lenient`, a group may end where the tokens end. -/
inductive Reads (lenient : Bool) : Place → List Token → Phrase → List Token → Prop where
  | formula {least : Nat} {tokens afterFirst afterChain rest : List Token}
      {first chain whole : Phrase} :
      Reads lenient .operand tokens first afterFirst →
      Reads lenient (.infixTail least first) afterFirst chain afterChain →
      Reads lenient (.conditionalTail least chain) afterChain whole rest →
      Reads lenient (.formula least) tokens whole rest
  | infixEnd {least : Nat} {chain : Phrase} {tokens : List Token} :
      takesInfix least (nextToken tokens) = none →
      Reads lenient (.infixTail least chain) tokens chain tokens
  | infixMore {least : Nat} {chain right whole : Phrase} {token : Token} {op : InfixOp}
      {tokens afterRight rest : List Token} :
      takesInfix least token = some op →
      Reads lenient (.formula op.operandLevel) tokens right afterRight →
      Reads lenient (.infixTail least (.between op chain right)) afterRight whole rest →
      Reads lenient (.infixTail least chain) (token :: tokens) whole rest
  | conditionalEnd {least : Nat} {condition : Phrase} {tokens : List Token} :
      takesConditional least (nextToken tokens) = false →
      Reads lenient (.conditionalTail least condition) tokens condition tokens
  | conditionalMore {least : Nat} {condition first second whole : Phrase} {token : Token}
      {tokens afterFirst afterSecond rest : List Token} :
      takesConditional least token = true →
      Reads lenient (.formula Conditional.operandLevel) tokens first
        (.symbol Conditional.marker :: afterFirst) →
      Reads lenient (.formula Conditional.operandLevel) afterFirst second afterSecond →
      Reads lenient (.conditionalTail least (.conditional condition first second)) afterSecond whole
        rest →
      Reads lenient (.conditionalTail least condition) (token :: tokens) whole rest
  | number {digits : String} {tokens : List Token} :
      (wordOfDigits? digits).isSome = true →
      Reads lenient .operand (.number digits :: tokens) (.number digits) tokens
  | bare {name : String} {tokens : List Token} :
      isReserved name = false → nextToken tokens ≠ .symbol "(" →
      Reads lenient .operand (.name name :: tokens) (.bare name) tokens
  | reference {kind name qualifier : String} {tokens : List Token} :
      isPropertyKind kind = true →
      Reads lenient .operand
        (.name kind :: .symbol "(" :: .string name :: .symbol "." :: .name qualifier ::
          .symbol ")" :: tokens)
        (.reference kind name qualifier) tokens
  | call {name : String} {fn : Builtin} {first second : Phrase}
      {tokens afterFirst rest : List Token} :
      Builtin.ofSymbol? name = some fn →
      Reads lenient (.formula 0) tokens first (.symbol "," :: afterFirst) →
      Reads lenient (.formula 0) afterFirst second (.symbol ")" :: rest) →
      Reads lenient .operand (.name name :: .symbol "(" :: tokens) (.call fn first second) rest
  | prefixed {text : String} {op : PrefixOp} {operand : Phrase} {tokens rest : List Token} :
      PrefixOp.ofSymbol? text = some op →
      Reads lenient (.formula op.precedence) tokens operand rest →
      Reads lenient .operand (.symbol text :: tokens) (.prefixed op operand) rest
  | group {inner : Phrase} {tokens rest : List Token} :
      Reads lenient (.formula 0) tokens inner (.symbol ")" :: rest) →
      Reads lenient .operand (.symbol "(" :: tokens) (.group inner) rest
  | unclosed {inner : Phrase} {tokens : List Token} :
      lenient = true → Reads lenient (.formula 0) tokens inner [] →
      Reads lenient .operand (.symbol "(" :: tokens) (.group inner) []

theorem isPropertyKind_of_ofSymbol? {name : String} {fn : Builtin}
    (h : Builtin.ofSymbol? name = some fn) : isPropertyKind name = false := by
  rw [Builtin.ofSymbol?_eq_some_iff.mp h]
  cases fn <;> decide

theorem ofSymbol?_parenthesis : PrefixOp.ofSymbol? "(" = none := by decide

theorem isReserved_of_ofSymbol? {name : String} {fn : Builtin}
    (h : Builtin.ofSymbol? name = some fn) : isReserved name = true := by
  rw [isReserved, h, Option.isSome_some, Bool.or_true]

theorem isReserved_of_isPropertyKind {name : String} (h : isPropertyKind name = true) :
    isReserved name = true := by
  rw [isReserved, h, Bool.true_or]

namespace Reads

/-- A list of tokens is read in one way at most. -/
theorem unique {lenient : Bool} {place : Place} {tokens rest rest' : List Token}
    {phrase phrase' : Phrase} (h : Reads lenient place tokens phrase rest)
    (h' : Reads lenient place tokens phrase' rest') : phrase = phrase' ∧ rest = rest' := by
  induction h generalizing phrase' rest' with
  | formula _ _ _ ihFirst ihChain ihWhole =>
    cases h' with
    | formula first chain whole =>
      obtain ⟨rfl, rfl⟩ := ihFirst first
      obtain ⟨rfl, rfl⟩ := ihChain chain
      exact ihWhole whole
  | infixEnd stops =>
    cases h' with
    | infixEnd _ => exact ⟨rfl, rfl⟩
    | infixMore taken _ _ =>
      rw [nextToken_cons, taken] at stops
      cases stops
  | infixMore taken _ _ ihRight ihWhole =>
    cases h' with
    | infixEnd stops =>
      rw [nextToken_cons, taken] at stops
      cases stops
    | infixMore taken' right whole =>
      rw [taken] at taken'
      cases taken'
      obtain ⟨rfl, rfl⟩ := ihRight right
      exact ihWhole whole
  | conditionalEnd stops =>
    cases h' with
    | conditionalEnd _ => exact ⟨rfl, rfl⟩
    | conditionalMore taken _ _ _ =>
      rw [nextToken_cons, taken] at stops
      cases stops
  | conditionalMore taken _ _ _ ihFirst ihSecond ihWhole =>
    cases h' with
    | conditionalEnd stops =>
      rw [nextToken_cons, taken] at stops
      cases stops
    | conditionalMore _ first second whole =>
      obtain ⟨rfl, same⟩ := ihFirst first
      cases same
      obtain ⟨rfl, rfl⟩ := ihSecond second
      exact ihWhole whole
  | number _ =>
    cases h'
    exact ⟨rfl, rfl⟩
  | bare free noCall =>
    cases h' with
    | bare _ _ => exact ⟨rfl, rfl⟩
    | reference _ => exact absurd rfl noCall
    | call _ _ _ => exact absurd rfl noCall
  | reference kind =>
    cases h' with
    | bare _ noCall => exact absurd rfl noCall
    | reference _ => exact ⟨rfl, rfl⟩
    | call called _ _ =>
      rw [isPropertyKind_of_ofSymbol? called] at kind
      cases kind
  | call called _ _ ihFirst ihSecond =>
    cases h' with
    | bare _ noCall => exact absurd rfl noCall
    | reference kind =>
      rw [isPropertyKind_of_ofSymbol? called] at kind
      cases kind
    | call called' first second =>
      rw [called] at called'
      cases called'
      obtain ⟨rfl, same⟩ := ihFirst first
      cases same
      obtain ⟨rfl, same⟩ := ihSecond second
      cases same
      exact ⟨rfl, rfl⟩
  | prefixed found _ ih =>
    cases h' with
    | prefixed found' operand =>
      rw [found] at found'
      cases found'
      obtain ⟨rfl, rfl⟩ := ih operand
      exact ⟨rfl, rfl⟩
    | group _ => exact nomatch ofSymbol?_parenthesis.symm.trans found
    | unclosed _ _ => exact nomatch ofSymbol?_parenthesis.symm.trans found
  | group _ ih =>
    cases h' with
    | prefixed found _ => exact nomatch ofSymbol?_parenthesis.symm.trans found
    | group inner =>
      obtain ⟨rfl, same⟩ := ih inner
      cases same
      exact ⟨rfl, rfl⟩
    | unclosed _ inner => exact nomatch (ih inner).2
  | unclosed _ _ ih =>
    cases h' with
    | prefixed found _ => exact nomatch ofSymbol?_parenthesis.symm.trans found
    | group inner => exact nomatch (ih inner).2
    | unclosed _ inner =>
      obtain ⟨rfl, _⟩ := ih inner
      exact ⟨rfl, rfl⟩

end Reads

end TableFormula
