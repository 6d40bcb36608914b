import TableFormula.Proofs.ReaderInduction
import TableFormula.Proofs.Reading
import TableFormula.TokenStream

/-! On a stream, each step of the readers is decided by the first token of a list. -/

namespace TableFormula

open TokenSource

/-! ### What the readers do -/

theorem lookahead_stream {tokens : List Token} {fault : Option LexFault}
    (sound : tokens = [] → fault = none) :
    lookahead (⟨tokens, fault⟩ : TokenStream) =
      .ok ⟨nextToken tokens, ⟨tokens, fault⟩, ⟨tokens.tail, fault⟩⟩ := by
  cases tokens with
  | nil => rw [sound rfl]; rfl
  | cons => rfl

theorem sound_cons {token : Token} {tokens : List Token} {fault : Option LexFault} :
    token :: tokens = [] → fault = none := nofun

theorem lookahead_cons (token : Token) (tokens : List Token) (fault : Option LexFault) :
    lookahead (⟨token :: tokens, fault⟩ : TokenStream) =
      .ok ⟨token, ⟨token :: tokens, fault⟩, ⟨tokens, fault⟩⟩ := rfl

theorem expect_stream {what : Expectation} {token : Token} {tokens : List Token}
    {fault : Option LexFault} (accepted : what.accepts token = true) :
    expect what (⟨token :: tokens, fault⟩ : TokenStream) =
      .ok ⟨token, ⟨token :: tokens, fault⟩, ⟨tokens, fault⟩⟩ := by
  unfold expect
  rw [lookahead_cons, ok_bind]
  exact if_pos accepted

theorem expect_refused (what : Expectation) {tokens : List Token} {fault : Option LexFault}
    (refused : what.accepts (nextToken tokens) = false) (sound : tokens = [] → fault = none) :
    expect what (⟨tokens, fault⟩ : TokenStream) = .error (.expected what (nextToken tokens)) := by
  unfold expect
  rw [lookahead_stream sound, ok_bind]
  exact if_neg (Bool.eq_false_iff.mp refused)

section

variable {options : Options} {owner : Owner} {depth least : Nat} {formula : Formula} {height : Nat}
  {token : Token} {tokens : List Token} {fault : Option LexFault}

theorem infixTail_end (stops : takesInfix least (nextToken tokens) = none)
    (sound : tokens = [] → fault = none) :
    infixTail options owner depth least ⟨formula, height, (⟨tokens, fault⟩ : TokenStream)⟩ =
      .ok ⟨formula, height, ⟨tokens, fault⟩⟩ := by
  rw [infixTail_eq, lookahead_stream sound, ok_bind]
  simp only [stops]

theorem infixTail_more {op : InfixOp} (taken : takesInfix least token = some op) :
    infixTail options owner depth least
        ⟨formula, height, (⟨token :: tokens, fault⟩ : TokenStream)⟩ = (do
      let right ← expr options owner depth op.operandLevel ⟨tokens, fault⟩
      let grown ← node options (.binary (.between op) formula right.formula)
        (max height right.height) right.source
      infixTail options owner depth least grown) := by
  rw [infixTail_eq, lookahead_cons, ok_bind]
  simp only [taken]

theorem infixTail_broken (fault : LexFault) : infixTail options owner depth least
    ⟨formula, height, (⟨[], some fault⟩ : TokenStream)⟩ = .error (.lexical fault) := by
  rw [infixTail_eq]
  rfl

theorem operand_broken (fault : LexFault) :
    operand options owner depth (⟨[], some fault⟩ : TokenStream) = .error (.lexical fault) := by
  rw [operand_eq]
  rfl

theorem operand_end : operand options owner depth ({ tokens := [] } : TokenStream) =
    .error (.unexpectedToken .endOfInput) := by
  rw [operand_eq]
  rfl

theorem operand_number (digits : String) :
    operand options owner depth (⟨.number digits :: tokens, fault⟩ : TokenStream) =
      number digits ⟨tokens, fault⟩ := by
  rw [operand_eq, lookahead_cons, ok_bind, value_eq]

theorem operand_bare {name : String} (free : isReserved name = false) :
    operand options owner depth (⟨.name name :: tokens, fault⟩ : TokenStream) =
      bareName owner name ⟨tokens, fault⟩ := by
  obtain ⟨noKind, noFunction⟩ := Bool.or_eq_false_iff.mp free
  rw [operand_eq, lookahead_cons, ok_bind, value_eq]
  dsimp only
  rw [noKind, Option.not_isSome_iff_eq_none.mp (Bool.eq_false_iff.mp noFunction)]
  rfl

theorem operand_reference {kind : String} (found : isPropertyKind kind = true) :
    operand options owner depth (⟨.name kind :: tokens, fault⟩ : TokenStream) =
      property kind ⟨tokens, fault⟩ := by
  rw [operand_eq, lookahead_cons, ok_bind, value_eq]
  exact if_pos found

theorem operand_call {name : String} {fn : Builtin} (called : Builtin.ofSymbol? name = some fn) :
    operand options owner depth (⟨.name name :: tokens, fault⟩ : TokenStream) = (do
      let opening ← expect .openCall (⟨tokens, fault⟩ : TokenStream)
      let first ← expr options owner depth 0 opening.rest
      let comma ← expect .callComma first.source
      let second ← expr options owner depth 0 comma.rest
      let closing ← expect .closeCall second.source
      node options (.binary (.call fn) first.formula second.formula)
        (max first.height second.height) closing.rest) := by
  rw [operand_eq, lookahead_cons, ok_bind, value_eq]
  dsimp only
  rw [isPropertyKind_of_ofSymbol? called, called]
  rfl

theorem operand_prefixed {text : String} {op : PrefixOp}
    (found : PrefixOp.ofSymbol? text = some op) :
    operand options owner depth (⟨.symbol text :: tokens, fault⟩ : TokenStream) = (do
      let inner ← expr options owner depth op.precedence ⟨tokens, fault⟩
      node options (.unary op inner.formula) inner.height inner.source) := by
  have noGroup : text ≠ "(" := by
    rintro rfl
    exact nomatch ofSymbol?_parenthesis.symm.trans found
  rw [operand_eq, lookahead_cons, ok_bind]
  dsimp only
  rw [if_neg noGroup, found]

theorem operand_group :
    operand options owner depth (⟨.symbol "(" :: tokens, fault⟩ : TokenStream) = (do
      let inner ← expr options owner depth 0 ⟨tokens, fault⟩
      closeParenthesis options inner) := by
  rw [operand_eq, lookahead_cons, ok_bind]
  exact if_pos rfl

theorem bareName_stream {name : String} (sound : tokens = [] → fault = none) :
    bareName owner name (⟨tokens, fault⟩ : TokenStream) =
      if nextToken tokens = .symbol "(" then .error (.unknownFunction name)
      else .ok (leaf (.property (owner.reference name)) ⟨tokens, fault⟩) := by
  unfold bareName
  rw [lookahead_stream sound, ok_bind]
  simp only [Token.isSymbol_iff]

theorem closeParenthesis_closed :
    closeParenthesis options (⟨formula, height, ⟨.symbol ")" :: tokens, fault⟩⟩ : Parsed TokenStream) =
      .ok ⟨formula, height, ⟨tokens, fault⟩⟩ := by
  rw [closeParenthesis_eq]
  rfl

theorem closeParenthesis_end (tolerated : options.allowUnclosedParens = true) :
    closeParenthesis options (⟨formula, height, ⟨[], none⟩⟩ : Parsed TokenStream) =
      .ok ⟨formula, height, ⟨[], none⟩⟩ := by
  rw [closeParenthesis_eq, lookahead_stream fun _ => rfl, ok_bind]
  simp only [nextToken_nil, tolerated]
  rfl

theorem closeParenthesis_missing (other : nextToken tokens ≠ .symbol ")")
    (refused : nextToken tokens = .endOfInput → options.allowUnclosedParens = false)
    (sound : tokens = [] → fault = none) :
    closeParenthesis options (⟨formula, height, ⟨tokens, fault⟩⟩ : Parsed TokenStream) =
      .error (.unclosedParenthesis (nextToken tokens)) := by
  rw [closeParenthesis_eq, lookahead_stream sound, ok_bind]
  dsimp only
  rw [if_neg fun closing => other (Token.isSymbol_iff.mp closing), if_neg]
  intro tolerated
  obtain ⟨ended, allowed⟩ := Bool.and_eq_true_iff.mp tolerated
  rw [refused (Token.isEnd_iff.mp ended)] at allowed
  cases allowed

theorem closeParenthesis_refused (other : token ≠ .symbol ")") (more : token ≠ .endOfInput) :
    closeParenthesis options (⟨formula, height, ⟨token :: tokens, fault⟩⟩ : Parsed TokenStream) =
      .error (.unclosedParenthesis token) :=
  closeParenthesis_missing other (fun ended => absurd ended more) sound_cons

theorem conditionalTail_end (stops : takesConditional least (nextToken tokens) = false)
    (sound : tokens = [] → fault = none) :
    conditionalTail options owner depth least ⟨formula, height, (⟨tokens, fault⟩ : TokenStream)⟩ =
      .ok ⟨formula, height, ⟨tokens, fault⟩⟩ := by
  rw [conditionalTail_eq, lookahead_stream sound, ok_bind]
  simp only [stops, Bool.false_eq_true, if_false]

theorem conditionalTail_broken (fault : LexFault) : conditionalTail options owner depth least
    ⟨formula, height, (⟨[], some fault⟩ : TokenStream)⟩ = .error (.lexical fault) := by
  rw [conditionalTail_eq]
  rfl

theorem conditionalTail_more (taken : takesConditional least token = true) :
    conditionalTail options owner depth least
        ⟨formula, height, (⟨token :: tokens, fault⟩ : TokenStream)⟩ = (do
      let first ← expr options owner depth Conditional.operandLevel ⟨tokens, fault⟩
      let marker ← expect .conditionalMarker first.source
      let second ← expr options owner depth Conditional.operandLevel marker.rest
      let grown ← node options (.conditional formula first.formula second.formula)
        (max (max height first.height) second.height) second.source
      conditionalTail options owner depth least grown) := by
  rw [conditionalTail_eq, lookahead_cons, ok_bind]
  simp only [taken, if_true]

end

/-! ### What the readers saw -/

theorem lookahead_ok {tokens : List Token} {fault : Option LexFault}
    {ahead : Lookahead TokenStream} (h : lookahead (⟨tokens, fault⟩ : TokenStream) = .ok ahead) :
    (tokens = [] → fault = none) ∧
      ahead = ⟨nextToken tokens, ⟨tokens, fault⟩, ⟨tokens.tail, fault⟩⟩ := by
  have sound : tokens = [] → fault = none := by
    rintro rfl
    cases fault with
    | none => rfl
    | some => cases h
  rw [lookahead_stream sound] at h
  exact ⟨sound, (Except.ok.inj h).symm⟩

theorem expect_ok {what : Expectation} {tokens : List Token} {fault : Option LexFault}
    {ahead : Lookahead TokenStream} (h : expect what (⟨tokens, fault⟩ : TokenStream) = .ok ahead) :
    ∃ token rest, tokens = token :: rest ∧ what.accepts token = true ∧
      ahead = ⟨token, ⟨tokens, fault⟩, ⟨rest, fault⟩⟩ := by
  obtain ⟨next, looked, h⟩ := ok_of_bind h
  obtain ⟨-, rfl⟩ := lookahead_ok looked
  dsimp only at h
  split at h
  · rename_i accepted
    cases h
    cases tokens with
    | nil => rw [nextToken_nil, what.not_accepts_endOfInput] at accepted; cases accepted
    | cons token rest => exact ⟨token, rest, rfl, accepted, rfl⟩
  · cases h

theorem node_ok {options : Options} {formula : Formula} {partHeight : Nat} {source : TokenStream}
    {parsed : Parsed TokenStream} (h : node options formula partHeight source = .ok parsed) :
    parsed = ⟨formula, partHeight + 1, source⟩ := by
  unfold node at h
  split at h
  · cases h
  · exact (Except.ok.inj h).symm

theorem closeParenthesis_ok {options : Options} {formula : Formula} {height : Nat}
    {tokens : List Token} {fault : Option LexFault} {parsed : Parsed TokenStream}
    (clean : .endOfInput ∉ tokens)
    (h : closeParenthesis options ⟨formula, height, (⟨tokens, fault⟩ : TokenStream)⟩ = .ok parsed) :
    (∃ rest, tokens = .symbol ")" :: rest ∧ parsed = ⟨formula, height, ⟨rest, fault⟩⟩) ∨
      tokens = [] ∧ options.allowUnclosedParens = true ∧ parsed = ⟨formula, height, ⟨[], fault⟩⟩ := by
  rw [closeParenthesis_eq] at h
  obtain ⟨ahead, looked, h⟩ := ok_of_bind h
  obtain ⟨-, rfl⟩ := lookahead_ok looked
  cases tokens with
  | nil =>
    dsimp only at h
    split at h
    · cases ‹Token.isSymbol _ _ = true›
    · split at h
      · rename_i tolerated
        exact .inr ⟨rfl, (Bool.and_eq_true_iff.mp tolerated).2, (Except.ok.inj h).symm⟩
      · cases h
  | cons token rest =>
    dsimp only at h
    split at h
    · rename_i closing
      obtain rfl : token = .symbol ")" := Token.isSymbol_iff.mp closing
      exact .inl ⟨rest, rfl, (Except.ok.inj h).symm⟩
    · split at h
      · rename_i tolerated
        obtain rfl : token = .endOfInput := Token.isEnd_iff.mp (Bool.and_eq_true_iff.mp tolerated).1
        exact absurd (List.mem_cons_self ..) clean
      · cases h

theorem property_ok {kind : String} {tokens : List Token} {fault : Option LexFault}
    {parsed : Parsed TokenStream} (h : property kind (⟨tokens, fault⟩ : TokenStream) = .ok parsed) :
    ∃ name qualifier rest, tokens = .symbol "(" :: .string name :: .symbol "." :: .name qualifier ::
        .symbol ")" :: rest ∧
      parsed = leaf (.property ⟨kind, name, qualifier⟩) ⟨rest, fault⟩ := by
  rw [property_eq] at h
  obtain ⟨opening, opened, h⟩ := ok_of_bind h
  obtain ⟨token, tokens, rfl, accepted, rfl⟩ := expect_ok opened
  obtain rfl := Token.isSymbol_iff.mp accepted
  obtain ⟨name, named, h⟩ := ok_of_bind h
  obtain ⟨token, tokens, rfl, acceptedName, rfl⟩ := expect_ok named
  obtain ⟨dot, dotted, h⟩ := ok_of_bind h
  obtain ⟨token', tokens, rfl, accepted, rfl⟩ := expect_ok dotted
  obtain rfl := Token.isSymbol_iff.mp accepted
  obtain ⟨qualifier, qualified, h⟩ := ok_of_bind h
  obtain ⟨token', tokens, rfl, acceptedQualifier, rfl⟩ := expect_ok qualified
  obtain ⟨closing, closed, h⟩ := ok_of_bind h
  obtain ⟨token'', rest, rfl, accepted, rfl⟩ := expect_ok closed
  obtain rfl := Token.isSymbol_iff.mp accepted
  cases token with
  | string name =>
    cases token' with
    | name qualifier => exact ⟨name, qualifier, rest, rfl, (Except.ok.inj h).symm⟩
    | string | symbol | number | endOfInput => cases acceptedQualifier
  | name | symbol | number | endOfInput => cases acceptedName

theorem bareName_ok {owner : Owner} {name : String} {tokens : List Token} {fault : Option LexFault}
    {parsed : Parsed TokenStream}
    (h : bareName owner name (⟨tokens, fault⟩ : TokenStream) = .ok parsed) :
    nextToken tokens ≠ .symbol "(" ∧
      parsed = leaf (.property (owner.reference name)) ⟨tokens, fault⟩ := by
  obtain ⟨ahead, looked, h⟩ := ok_of_bind h
  obtain ⟨-, rfl⟩ := lookahead_ok looked
  dsimp only at h
  split at h
  · cases h
  · rename_i noCall
    exact ⟨fun same => noCall (Token.isSymbol_iff.mpr same), (Except.ok.inj h).symm⟩

end TableFormula
