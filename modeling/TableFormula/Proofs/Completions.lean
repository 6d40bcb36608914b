import TableFormula.Proofs.FailureOutcome
import TableFormula.Proofs.FlatPhrases
import TableFormula.Proofs.WrittenText

/-!
Whatever a failed reading has accepted, some tokens behind it close the parentheses, calls, references
and conditionals that are open. Which operators stand there plays no role, so that the flat grammar
tells what can follow.
-/

namespace TableFormula

/-! ### Tokens that complete -/

def fillers : List Token :=
  [.name "x", .string "", .symbol "(", .symbol ")", .symbol ",", .symbol ".", .symbol ":"]

/-- Whether fillers behind the tokens give them a property. -/
def Completes (p : List Token → Prop) (tokens : List Token) : Prop :=
  ∃ more : List Token, (∀ token ∈ more, token ∈ fillers) ∧ p (tokens ++ more)

theorem flatOperand_filler : FlatOperand [.name "x"] := .bare (by decide)

theorem flatExpr_filler : FlatExpr [.name "x"] := .chain (.single flatOperand_filler)

theorem mem_fillers_of_closings {missing : Nat} :
    ∀ token ∈ closings missing, token ∈ fillers := by
  intro token member
  rw [List.eq_of_mem_replicate member]
  decide

namespace Completes

variable {p q : List Token → Prop} {tokens read : List Token}

theorem done (h : p tokens) : Completes p tokens :=
  ⟨[], List.forall_mem_nil _, by rwa [List.append_nil]⟩

theorem extend (h : Completes p read) (front back : List Token)
    (few : ∀ token ∈ back, token ∈ fillers)
    (built : ∀ tokens, p tokens → q (front ++ (tokens ++ back))) : Completes q (front ++ read) := by
  obtain ⟨more, fewer, holds⟩ := h
  refine ⟨more ++ back, List.forall_mem_append.mpr ⟨fewer, few⟩, ?_⟩
  have whole := built _ holds
  rwa [List.append_assoc, ← List.append_assoc front] at whole

theorem mono (h : Completes p read) (weaker : ∀ tokens, p tokens → q tokens) : Completes q read := by
  obtain ⟨more, few, holds⟩ := h
  exact ⟨more, few, weaker _ holds⟩

end Completes

@[simp] theorem numbersFit_nil : NumbersFit [] := by simp [NumbersFit]

@[simp] theorem numbersFit_cons_name {text : String} {tokens : List Token} :
    NumbersFit (.name text :: tokens) ↔ NumbersFit tokens := by simp [NumbersFit]

@[simp] theorem numbersFit_cons_symbol {text : String} {tokens : List Token} :
    NumbersFit (.symbol text :: tokens) ↔ NumbersFit tokens := by simp [NumbersFit]

/-! ### What was read -/

theorem Writes.exists_read {lenient : Bool} {phrase : Phrase} {tokens rest : List Token}
    (h : Writes lenient phrase tokens rest) : ∃ read missing, tokens = read ++ rest ∧
      phrase.tokens = read ++ closings missing := by
  obtain ⟨missing, -, written, ended⟩ := h
  by_cases complete : missing = 0
  · subst complete
    refine ⟨phrase.tokens, 0, ?_, (List.append_nil _).symm⟩
    rwa [closings, List.replicate_zero, List.append_nil] at written
  · obtain ⟨-, rfl⟩ := ended complete
    rw [List.append_nil] at written
    exact ⟨tokens, missing, (List.append_nil _).symm, written.symm⟩

section

variable {lenient : Bool} {least : Nat} {phrase first : Phrase} {next : Token}
  {tokens rest afterFirst : List Token}

theorem Reads.flatChain (h : Reads lenient .operand tokens phrase (next :: rest)) :
    tokens = phrase.tokens ++ next :: rest ∧ NumbersFit phrase.tokens ∧ FlatChain phrase.tokens := by
  obtain ⟨settled, fits⟩ := h.done trivial
  have unconditional := Phrase.not_isConditional_of_fits (fits 0)
  exact ⟨h.writes.eq_of_cons, Phrase.numbersFit settled.valid,
    (Phrase.flat_of_wellGrouped settled.valid settled.wellGrouped).2 unconditional⟩

theorem Reads.flatChain_of_tail {chain : Phrase}
    (firstRead : Reads lenient .operand tokens first afterFirst)
    (chainRead : Reads lenient (.infixTail least first) afterFirst chain (next :: rest)) :
    tokens = chain.tokens ++ next :: rest ∧ NumbersFit chain.tokens ∧ FlatChain chain.tokens := by
  obtain ⟨settledFirst, fitsFirst⟩ := firstRead.done trivial
  obtain ⟨settled, fits, -⟩ := chainRead.done ⟨settledFirst, fitsFirst least⟩
  have unconditional := Phrase.not_isConditional_of_fits fits
  have some : afterFirst ≠ [] := fun none => by
    have empty := chainRead.suffix.length_le
    rw [none] at empty
    cases empty
  obtain ⟨token, later, rfl⟩ := List.exists_cons_of_ne_nil some
  have split : tokens = first.tokens ++ token :: later := firstRead.writes.eq_of_cons
  refine ⟨split.trans chainRead.writes.eq_of_cons, Phrase.numbersFit settled.valid,
    (Phrase.flat_of_wellGrouped settled.valid settled.wellGrouped).2 unconditional⟩

/-- The flat form of what a formula's place takes: a chain where no conditional may stand. -/
def FlatAt (least : Nat) (tokens : List Token) : Prop :=
  FlatExpr tokens ∧ (0 < least → FlatChain tokens)

theorem Reads.flatAt (h : Reads lenient (.formula least) tokens phrase rest) :
    NumbersFit phrase.tokens ∧ FlatAt least phrase.tokens := by
  obtain ⟨settled, fits, -⟩ := h.done trivial
  obtain ⟨expr, chain⟩ := Phrase.flat_of_wellGrouped settled.valid settled.wellGrouped
  exact ⟨Phrase.numbersFit settled.valid, expr,
    fun positive => chain (Phrase.not_isConditional_of_fits (fits positive))⟩

theorem Reads.flatAt_of_cons (h : Reads lenient (.formula least) tokens phrase (next :: rest)) :
    tokens = phrase.tokens ++ next :: rest ∧ NumbersFit phrase.tokens ∧ FlatAt least phrase.tokens :=
  ⟨h.writes.eq_of_cons, h.flatAt⟩

end

/-! ### Property references -/

def Expectation.filler : Expectation → Token
  | conditionalMarker => .symbol ":"
  | openReference | openCall => .symbol "("
  | referenceName => .string ""
  | referenceDot => .symbol "."
  | referenceQualifier => .name "x"
  | closeReference | closeCall => .symbol ")"
  | callComma => .symbol ","

theorem Expectation.accepts_filler (what : Expectation) : what.accepts what.filler = true := by
  cases what <;> rfl

theorem Expectation.filler_mem (what : Expectation) : what.filler ∈ fillers := by
  cases what <;> decide

theorem firstMissing_fillers (expected : List Expectation) :
    firstMissing expected (expected.map (·.filler)) = none := by
  induction expected with
  | nil => rfl
  | cons what expected ih => exact (firstMissing_accepted what.accepts_filler).trans ih

theorem completes_of_firstMissing {expected : List Expectation} {missing : Expectation}
    {tokens rest : List Token} (h : firstMissing expected tokens = some (missing, rest)) :
    ∃ read, tokens = read ++ rest ∧ Completes (fun whole =>
      firstMissing expected whole = none ∧ whole.length = expected.length) read := by
  induction expected generalizing tokens with
  | nil => cases h
  | cons what expected ih =>
    obtain ⟨token, later, rfl, accepted⟩ | refused := what.accepts_cases tokens
    · rw [firstMissing_accepted accepted] at h
      obtain ⟨read, rfl, more, few, complete, length⟩ := ih h
      exact ⟨token :: read, rfl, more, few, (firstMissing_accepted accepted).trans complete,
        congrArg (· + 1) length⟩
    · rw [firstMissing_refused refused] at h
      cases h
      refine ⟨[], rfl, (missing :: expected).map (·.filler), ?_, firstMissing_fillers _,
        List.length_map _⟩
      intro token member
      obtain ⟨what, -, rfl⟩ := List.mem_map.mp member
      exact what.filler_mem

theorem completes_reference {kind : String} {missing : Expectation} {tokens rest : List Token}
    (found : isPropertyKind kind = true)
    (h : firstMissing Expectation.ofReference tokens = some (missing, rest)) :
    ∃ read, tokens = read ++ rest ∧ NumbersFit read ∧ Completes FlatOperand (.name kind :: read) := by
  obtain ⟨read, split, more, few, complete, length⟩ := completes_of_firstMissing h
  obtain ⟨name, qualifier, behind, whole⟩ := reference_of_firstMissing complete
  obtain rfl : behind = [] := by
    rw [whole] at length
    exact List.eq_nil_of_length_eq_zero (by simpa [Expectation.ofReference] using length)
  have fit : NumbersFit (read ++ more) := by
    rw [whole]
    simp [NumbersFit]
  refine ⟨read, split, (NumbersFit.append.mp fit).1, more, few, ?_⟩
  rw [List.cons_append, whole]
  exact .reference name qualifier found

/-! ### What a place has accepted -/

/-- Whether tokens that a place has accepted, behind the chain of a tail, can be completed. -/
def Place.Opens : Place → List Token → Prop
  | .formula least, read => Completes (FlatAt least) read
  | .infixTail _ _, read => ∀ front, FlatChain front → Completes FlatChain (front ++ read)
  | .conditionalTail least _, read =>
    least = 0 ∧ ∀ front, FlatChain front → Completes FlatExpr (front ++ read)
  | .operand, read => Completes FlatChain read

/-- Whether the tokens before the rest can be completed. -/
def Place.Accepted (place : Place) (tokens rest : List Token) : Prop :=
  ∃ read, tokens = read ++ rest ∧ NumbersFit read ∧ place.Opens read

theorem accepted_nothing {tokens : List Token} : Place.operand.Accepted tokens tokens :=
  ⟨[], rfl, numbersFit_nil, [.name "x"], by decide, .single flatOperand_filler⟩

section

variable {lenient : Bool} {place part : Place} {tokens later rest : List Token} {fault : ParseError}

theorem Reads.accepted {least : Nat} {phrase : Phrase}
    (h : Reads lenient (.formula least) tokens phrase rest) :
    (Place.formula least).Accepted tokens rest := by
  obtain ⟨fit, flat⟩ := h.flatAt
  obtain ⟨read, missing, split, written⟩ := h.writes.exists_read
  rw [written] at fit flat
  exact ⟨read, split, (NumbersFit.append.mp fit).1, closings missing, mem_fillers_of_closings, flat⟩

theorem Enters.opens (h : Enters lenient place tokens part later) :
    ∃ read, tokens = read ++ later ∧ NumbersFit read ∧
      ∀ inner, part.Opens inner → place.Opens (read ++ inner) := by
  cases h with
  | operand =>
    exact ⟨[], rfl, numbersFit_nil, fun inner opens =>
      opens.mono fun _ chain => ⟨.chain chain, fun _ => chain⟩⟩
  | @infixTail _ first _ _ _ firstRead =>
    obtain ⟨split, fit, chain⟩ := firstRead.flatChain
    exact ⟨first.tokens, split, fit, fun inner opens =>
      (opens _ chain).mono fun _ chain => ⟨.chain chain, fun _ => chain⟩⟩
  | @conditionalTail _ first chain _ _ _ _ firstRead chainRead =>
    obtain ⟨split, fit, flat⟩ := Reads.flatChain_of_tail firstRead chainRead
    refine ⟨chain.tokens, split, fit, fun inner ⟨level, opens⟩ => ?_⟩
    subst level
    exact (opens _ flat).mono fun _ whole => ⟨whole, fun positive => (Nat.lt_irrefl 0 positive).elim⟩
  | @right _ _ _ op _ taken =>
    -- No conditional may stand on the right of an operator, so that what stands there is a chain.
    obtain ⟨rfl, -⟩ := takesInfix_eq_some_iff.mp taken
    refine ⟨[.symbol op.symbol], rfl, by simp, fun inner opens front chain => ?_⟩
    have whole := opens.extend (front ++ [.symbol op.symbol]) [] (List.forall_mem_nil _)
      fun _ flat => by simpa using chain.append op (flat.2 op.operandLevel_pos)
    simpa using whole
  | @infixMore _ _ right _ _ op _ _ taken rightRead =>
    obtain ⟨rfl, -⟩ := takesInfix_eq_some_iff.mp taken
    obtain ⟨rfl, fit, flat⟩ := rightRead.flatAt_of_cons
    refine ⟨.symbol op.symbol :: right.tokens, rfl, by simpa, fun inner opens front chain => ?_⟩
    have whole := opens _ (chain.append op (flat.2 op.operandLevel_pos))
    simpa using whole
  | firstBranch taken =>
    obtain ⟨rfl, rfl⟩ := takesConditional_iff.mp taken
    refine ⟨[.symbol Conditional.symbol], rfl, by simp,
      fun inner opens => ⟨rfl, fun front chain => ?_⟩⟩
    have whole := opens.extend (front ++ [.symbol Conditional.symbol])
      [.symbol Conditional.marker, .name "x"] (by decide) fun _ flat => by
        simpa using FlatExpr.conditional chain flat.1 flatExpr_filler
    simpa using whole
  | @secondBranch _ _ first _ _ _ taken firstRead =>
    obtain ⟨rfl, rfl⟩ := takesConditional_iff.mp taken
    obtain ⟨rfl, fit, flatFirst⟩ := firstRead.flatAt_of_cons
    refine ⟨.symbol Conditional.symbol :: (first.tokens ++ [.symbol Conditional.marker]), by simp,
      by simp [NumbersFit.append, fit], fun inner opens => ⟨rfl, fun front chain => ?_⟩⟩
    have whole := opens.extend
      (front ++ .symbol Conditional.symbol :: (first.tokens ++ [.symbol Conditional.marker])) []
      (List.forall_mem_nil _) fun _ flat => by
        simpa using FlatExpr.conditional chain flatFirst.1 flat.1
    simpa using whole
  | @firstArgument _ fn _ called =>
    obtain rfl := Builtin.ofSymbol?_eq_some_iff.mp called
    refine ⟨[.name fn.symbol, .symbol "("], rfl, by simp, fun inner opens => ?_⟩
    exact opens.extend [.name fn.symbol, .symbol "("] [.symbol ",", .name "x", .symbol ")"]
      (by decide) fun _ flat => .single (.call fn flat.1 flatExpr_filler)
  | @secondArgument _ fn first _ _ called firstRead =>
    obtain rfl := Builtin.ofSymbol?_eq_some_iff.mp called
    obtain ⟨rfl, fit, flatFirst⟩ := firstRead.flatAt_of_cons
    refine ⟨.name fn.symbol :: .symbol "(" :: (first.tokens ++ [.symbol ","]), by simp,
      by simp [NumbersFit.append, fit], fun inner opens => ?_⟩
    exact opens.extend (.name fn.symbol :: .symbol "(" :: (first.tokens ++ [.symbol ","]))
      [.symbol ")"] (by decide) fun _ flat => FlatChain.single
        (by simpa using FlatOperand.call fn flatFirst.1 flat.1)
  | @prefixed text op _ found =>
    obtain rfl := PrefixOp.ofSymbol?_eq_some_iff.mp found
    refine ⟨[.symbol op.symbol], rfl, by simp, fun inner opens => ?_⟩
    exact opens.extend [.symbol op.symbol] [] (List.forall_mem_nil _) fun _ flat => by
      simpa using (flat.2 op.precedence_pos).prefixed op
  | group =>
    exact ⟨[.symbol "("], rfl, by simp, fun inner opens =>
      opens.extend [.symbol "("] [.symbol ")"] (by decide) fun _ flat => .single (.group flat.1)⟩

theorem Enters.accepted (h : Enters lenient place tokens part later)
    (inner : part.Accepted later rest) : place.Accepted tokens rest := by
  obtain ⟨front, rfl, fitFront, builds⟩ := h.opens
  obtain ⟨read, rfl, fit, opens⟩ := inner
  exact ⟨front ++ read, (List.append_assoc ..).symm, NumbersFit.append.mpr ⟨fitFront, fit⟩,
    builds read opens⟩

theorem Reads.acceptedIn {least : Nat} {phrase : Phrase}
    (h : Reads lenient (.formula least) later phrase rest)
    (enters : Enters lenient place tokens (.formula least) later) : place.Accepted tokens rest :=
  enters.accepted h.accepted

theorem Refuses.accepted (h : Refuses lenient place tokens fault rest) :
    place.Accepted tokens rest := by
  cases h with
  | unexpected | number => exact accepted_nothing
  | @unknownFunction name _ free =>
    exact ⟨[.name name], rfl, by simp, .done (.single (.bare free))⟩
  | reference found missing =>
    obtain ⟨read, rfl, fit, opens⟩ := completes_reference found missing
    exact ⟨_ :: read, rfl, by simpa, opens.mono fun _ => .single⟩
  | @openCall name fn _ called =>
    obtain rfl := Builtin.ofSymbol?_eq_some_iff.mp called
    refine ⟨[.name fn.symbol], rfl, by simp,
      [.symbol "(", .name "x", .symbol ",", .name "x", .symbol ")"], by decide, ?_⟩
    exact .single (.call fn flatExpr_filler flatExpr_filler)
  -- The others come after a whole part: the place has accepted what it had on entering that part.
  | callComma called first => exact first.acceptedIn (.firstArgument called)
  | closeCall called first second => exact second.acceptedIn (.secondArgument called first)
  | group inner => exact inner.acceptedIn .group
  | conditionalMarker taken first => exact first.acceptedIn (.firstBranch taken)

/-- What a failed reading has accepted can be completed. -/
theorem Fails.accepted (h : Fails lenient place tokens fault rest) : place.Accepted tokens rest := by
  induction h with
  | here refuses => exact refuses.accepted
  | inside enters _ ih => exact enters.accepted ih

theorem FailsWhole.opens {options : Options} (h : FailsWhole options tokens fault rest) :
    ∃ read, tokens = read ++ rest ∧ NumbersFit read ∧ Completes FlatExpr read := by
  cases h with
  | inside fails =>
    obtain ⟨read, split, fit, opens⟩ := fails.accepted
    exact ⟨read, split, fit, opens.mono fun _ flat => flat.1⟩
  | trailing _ reads =>
    obtain ⟨split, fit, flat⟩ := reads.flatAt_of_cons
    exact ⟨_, split, fit, .done flat.1⟩

end

/-! ### Formulas that begin with tokens -/

/-- Whether some formula begins with the tokens. -/
def OpensFormula (tokens : List Token) : Prop :=
  ∃ (phrase : Phrase) (text : String), phrase.Spells text ∧ tokens <+: phrase.tokens

theorem OpensFormula.front_of {tokens front : List Token} (h : OpensFormula tokens)
    (begins : front <+: tokens) : OpensFormula front := by
  obtain ⟨phrase, text, spells, opens⟩ := h
  exact ⟨phrase, text, spells, begins.trans opens⟩

theorem Phrase.Spells.wellFormed {phrase : Phrase} {text : String} (spells : phrase.Spells text) :
    ∀ token ∈ phrase.tokens, token.WellFormed := by
  have same : (TokenStream.ofChars 0 text.toList).tokens = phrase.tokens :=
    congrArg TokenStream.tokens spells.stream
  rw [← same]
  exact TokenStream.wellFormed_of_mem

theorem exists_phrase_of_completes {read : List Token} (fit : NumbersFit read)
    (h : Completes FlatExpr read) : ∃ (phrase : Phrase) (more : List Token),
      (∀ token ∈ more, token ∈ fillers) ∧ phrase.Valid ∧ phrase.WellGrouped ∧
        phrase.tokens = read ++ more := by
  obtain ⟨more, few, flat⟩ := h
  have fitMore : NumbersFit more := by
    have none : ∀ digits, Token.number digits ∉ fillers := by simp [fillers]
    exact fun digits member => absurd (few _ member) (none digits)
  obtain ⟨phrase, valid, grouped, same⟩ := flat.exists_phrase (NumbersFit.append.mpr ⟨fit, fitMore⟩)
  exact ⟨phrase, more, few, valid, grouped, same⟩

/-- Tokens with a space before each. -/
def withSpaces (tokens : List Token) : SpacedTokens := tokens.map ([' '], ·)

theorem map_snd_withSpaces (tokens : List Token) : (withSpaces tokens).map (·.2) = tokens := by
  rw [withSpaces, List.map_map]
  exact List.map_id tokens

theorem spaced_withSpaces (tokens : List Token) : (withSpaces tokens).Spaced := by
  induction tokens with
  | nil => trivial
  | cons token tokens ih =>
    cases tokens with
    | nil => exact (by decide : [' '].all Text.isBlank = true)
    | cons next tokens => exact ⟨by decide, fun _ => by simp, ih⟩

theorem ofChars_withSpaces {position : Nat} {tokens : List Token}
    (wellFormed : ∀ token ∈ tokens, token.WellFormed) :
    TokenStream.ofChars position ((withSpaces tokens).written []) = { tokens } := by
  have each : ∀ pair ∈ withSpaces tokens, pair.2.WellFormed := by
    intro pair member
    obtain ⟨token, there, rfl⟩ := List.mem_map.mp member
    exact wellFormed token there
  rw [SpacedTokens.ofChars_written (spaced_withSpaces tokens) each rfl, map_snd_withSpaces]

theorem wellFormed_of_mem_fillers : ∀ token ∈ fillers, token.WellFormed := by decide

theorem opensFormula_of_completes {read : List Token}
    (wellFormed : ∀ token ∈ read, token.WellFormed) (fit : NumbersFit read)
    (h : Completes FlatExpr read) : OpensFormula read := by
  obtain ⟨phrase, more, few, valid, grouped, same⟩ := exists_phrase_of_completes fit h
  have proper : ∀ token ∈ phrase.tokens, token.WellFormed := by
    rw [same]
    exact List.forall_mem_append.mpr
      ⟨wellFormed, fun token member => wellFormed_of_mem_fillers token (few token member)⟩
  refine ⟨phrase, String.ofList ((withSpaces phrase.tokens).written []), ⟨valid, grouped, ?_⟩,
    same ▸ List.prefix_append read more⟩
  rw [TokenStream.ofText, String.toList_ofList, ofChars_withSpaces proper]

end TableFormula
