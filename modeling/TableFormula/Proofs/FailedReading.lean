import TableFormula.Proofs.LeadingPhrase

/-!
Every list of tokens is read or fails, and what a failed reading has accepted makes no difference to
the fault but by the token behind it.
-/

namespace TableFormula

/-! ### Tokens that are refused -/

/-- Whether a value, a prefix operator or a group begins with the token. -/
def Token.beginsOperand : Token → Bool
  | number _ | name _ => true
  | symbol text => text == "(" || (PrefixOp.ofSymbol? text).isSome
  | string _ | endOfInput => false

/-- What stands behind the kind in a property reference. -/
def Expectation.ofReference : List Expectation :=
  [.openReference, .referenceName, .referenceDot, .referenceQualifier, .closeReference]

/-- The first of the expected tokens that is missing, and the tokens that stand there. -/
def firstMissing : List Expectation → List Token → Option (Expectation × List Token)
  | [], _ => none
  | what :: later, tokens =>
    if what.accepts (nextToken tokens) then firstMissing later tokens.tail
    else some (what, tokens)

/-- `Refuses place tokens fault rest`: the place refuses the first token of `rest`, with the fault. -/
inductive Refuses (lenient : Bool) : Place → List Token → ParseError → List Token → Prop where
  | unexpected {tokens : List Token} :
      (nextToken tokens).beginsOperand = false →
      Refuses lenient .operand tokens (.unexpectedToken (nextToken tokens)) tokens
  | number {digits : String} {tokens : List Token} :
      wordOfDigits? digits = none →
      Refuses lenient .operand (.number digits :: tokens) (.invalidNumber digits)
        (.number digits :: tokens)
  | unknownFunction {name : String} {tokens : List Token} :
      isReserved name = false →
      Refuses lenient .operand (.name name :: .symbol "(" :: tokens) (.unknownFunction name)
        (.symbol "(" :: tokens)
  | reference {kind : String} {what : Expectation} {tokens rest : List Token} :
      isPropertyKind kind = true → firstMissing Expectation.ofReference tokens = some (what, rest) →
      Refuses lenient .operand (.name kind :: tokens) (.expected what (nextToken rest)) rest
  | openCall {name : String} {fn : Builtin} {tokens : List Token} :
      Builtin.ofSymbol? name = some fn → nextToken tokens ≠ .symbol "(" →
      Refuses lenient .operand (.name name :: tokens) (.expected .openCall (nextToken tokens)) tokens
  | callComma {name : String} {fn : Builtin} {first : Phrase} {tokens rest : List Token} :
      Builtin.ofSymbol? name = some fn → Reads lenient (.formula 0) tokens first rest →
      nextToken rest ≠ .symbol "," →
      Refuses lenient .operand (.name name :: .symbol "(" :: tokens)
        (.expected .callComma (nextToken rest)) rest
  | closeCall {name : String} {fn : Builtin} {first second : Phrase}
      {tokens afterFirst rest : List Token} :
      Builtin.ofSymbol? name = some fn →
      Reads lenient (.formula 0) tokens first (.symbol "," :: afterFirst) →
      Reads lenient (.formula 0) afterFirst second rest → nextToken rest ≠ .symbol ")" →
      Refuses lenient .operand (.name name :: .symbol "(" :: tokens)
        (.expected .closeCall (nextToken rest)) rest
  | group {inner : Phrase} {tokens rest : List Token} :
      Reads lenient (.formula 0) tokens inner rest → nextToken rest ≠ .symbol ")" →
      (nextToken rest = .endOfInput → lenient = false) →
      Refuses lenient .operand (.symbol "(" :: tokens) (.unclosedParenthesis (nextToken rest)) rest
  | conditionalMarker {least : Nat} {condition first : Phrase} {token : Token}
      {tokens rest : List Token} :
      takesConditional least token = true →
      Reads lenient (.formula Conditional.operandLevel) tokens first rest →
      nextToken rest ≠ .symbol Conditional.marker →
      Refuses lenient (.conditionalTail least condition) (token :: tokens)
        (.expected .conditionalMarker (nextToken rest)) rest

/-- `Enters place tokens part later`: a reading in the place comes to a part of it, with these tokens
left. There is no second conditional in a tail: the branches take it. -/
inductive Enters (lenient : Bool) : Place → List Token → Place → List Token → Prop where
  | operand {least : Nat} {tokens : List Token} :
      Enters lenient (.formula least) tokens .operand tokens
  | infixTail {least : Nat} {first : Phrase} {next : Token} {tokens later : List Token} :
      Reads lenient .operand tokens first (next :: later) →
      Enters lenient (.formula least) tokens (.infixTail least first) (next :: later)
  | conditionalTail {least : Nat} {first chain : Phrase} {next : Token}
      {tokens afterFirst later : List Token} :
      Reads lenient .operand tokens first afterFirst →
      Reads lenient (.infixTail least first) afterFirst chain (next :: later) →
      Enters lenient (.formula least) tokens (.conditionalTail least chain) (next :: later)
  | right {least : Nat} {chain : Phrase} {token : Token} {op : InfixOp} {tokens : List Token} :
      takesInfix least token = some op →
      Enters lenient (.infixTail least chain) (token :: tokens) (.formula op.operandLevel) tokens
  | infixMore {least : Nat} {chain right : Phrase} {token next : Token} {op : InfixOp}
      {tokens later : List Token} :
      takesInfix least token = some op →
      Reads lenient (.formula op.operandLevel) tokens right (next :: later) →
      Enters lenient (.infixTail least chain) (token :: tokens)
        (.infixTail least (.between op chain right)) (next :: later)
  | firstBranch {least : Nat} {condition : Phrase} {token : Token} {tokens : List Token} :
      takesConditional least token = true →
      Enters lenient (.conditionalTail least condition) (token :: tokens)
        (.formula Conditional.operandLevel) tokens
  | secondBranch {least : Nat} {condition first : Phrase} {token : Token}
      {tokens later : List Token} :
      takesConditional least token = true →
      Reads lenient (.formula Conditional.operandLevel) tokens first
        (.symbol Conditional.marker :: later) →
      Enters lenient (.conditionalTail least condition) (token :: tokens)
        (.formula Conditional.operandLevel) later
  | firstArgument {name : String} {fn : Builtin} {tokens : List Token} :
      Builtin.ofSymbol? name = some fn →
      Enters lenient .operand (.name name :: .symbol "(" :: tokens) (.formula 0) tokens
  | secondArgument {name : String} {fn : Builtin} {first : Phrase} {tokens later : List Token} :
      Builtin.ofSymbol? name = some fn →
      Reads lenient (.formula 0) tokens first (.symbol "," :: later) →
      Enters lenient .operand (.name name :: .symbol "(" :: tokens) (.formula 0) later
  | prefixed {text : String} {op : PrefixOp} {tokens : List Token} :
      PrefixOp.ofSymbol? text = some op →
      Enters lenient .operand (.symbol text :: tokens) (.formula op.precedence) tokens
  | group {tokens : List Token} :
      Enters lenient .operand (.symbol "(" :: tokens) (.formula 0) tokens

/-- The fault that ends the reading in a place, and the tokens from the refused one on. -/
inductive Fails (lenient : Bool) : Place → List Token → ParseError → List Token → Prop where
  | here {place : Place} {tokens rest : List Token} {fault : ParseError} :
      Refuses lenient place tokens fault rest → Fails lenient place tokens fault rest
  | inside {place part : Place} {tokens later rest : List Token} {fault : ParseError} :
      Enters lenient place tokens part later → Fails lenient part later fault rest →
      Fails lenient place tokens fault rest

/-! ### Every list is read or fails -/

theorem eq_cons_of_nextToken {tokens : List Token} {token : Token} (next : nextToken tokens = token)
    (proper : token ≠ .endOfInput) : ∃ later, tokens = token :: later := by
  subst next
  cases tokens with
  | nil => exact absurd rfl proper
  | cons token later => exact ⟨later, rfl⟩

/-- Either the token that is expected stands there, or it is missing. -/
theorem Expectation.accepts_cases (what : Expectation) (tokens : List Token) :
    (∃ token later, tokens = token :: later ∧ what.accepts token = true) ∨
      what.accepts (nextToken tokens) = false := by
  cases tokens with
  | nil => exact .inr what.not_accepts_endOfInput
  | cons token later =>
    cases accepted : what.accepts token with
    | true => exact .inl ⟨token, later, rfl, accepted⟩
    | false => exact .inr accepted

section

variable {what : Expectation} {later : List Expectation} {token : Token} {tokens : List Token}

theorem firstMissing_accepted (accepted : what.accepts token = true) :
    firstMissing (what :: later) (token :: tokens) = firstMissing later tokens := by
  rw [firstMissing, nextToken_cons, if_pos accepted]
  rfl

theorem firstMissing_refused (refused : what.accepts (nextToken tokens) = false) :
    firstMissing (what :: later) tokens = some (what, tokens) :=
  if_neg (Bool.eq_false_iff.mp refused)

theorem of_firstMissing_cons_eq_none (complete : firstMissing (what :: later) tokens = none) :
    ∃ token rest, tokens = token :: rest ∧ what.accepts token = true ∧
      firstMissing later rest = none := by
  obtain ⟨token, rest, rfl, accepted⟩ | refused := what.accepts_cases tokens
  · exact ⟨token, rest, rfl, accepted, (firstMissing_accepted accepted).symm.trans complete⟩
  · rw [firstMissing_refused refused] at complete
    cases complete

end

theorem reference_of_firstMissing {tokens : List Token}
    (complete : firstMissing Expectation.ofReference tokens = none) : ∃ name qualifier rest,
      tokens = .symbol "(" :: .string name :: .symbol "." :: .name qualifier :: .symbol ")" ::
        rest := by
  obtain ⟨_, _, rfl, accepted, behindOpening⟩ := of_firstMissing_cons_eq_none complete
  obtain rfl := Token.isSymbol_iff.mp accepted
  obtain ⟨named, _, rfl, acceptedName, behindName⟩ := of_firstMissing_cons_eq_none behindOpening
  obtain ⟨_, _, rfl, accepted, behindDot⟩ := of_firstMissing_cons_eq_none behindName
  obtain rfl := Token.isSymbol_iff.mp accepted
  obtain ⟨qualified, _, rfl, acceptedQualifier, behindQualifier⟩ :=
    of_firstMissing_cons_eq_none behindDot
  obtain ⟨_, rest, rfl, accepted, -⟩ := of_firstMissing_cons_eq_none behindQualifier
  obtain rfl := Token.isSymbol_iff.mp accepted
  cases named with
  | string name =>
    cases qualified with
    | name qualifier => exact ⟨name, qualifier, rest, rfl⟩
    | string | symbol | number | endOfInput => cases acceptedQualifier
  | name | symbol | number | endOfInput => cases acceptedName

theorem Reads.length_lt {lenient : Bool} {tokens rest : List Token} {phrase : Phrase}
    (h : Reads lenient .operand tokens phrase rest) : rest.length < tokens.length := by
  cases h with
  | number | bare => exact Nat.lt_succ_self _
  | reference =>
    simp only [List.length_cons]
    omega
  | call _ first second =>
    have := first.suffix.length_le
    have := second.suffix.length_le
    simp only [List.length_cons] at *
    omega
  | prefixed _ operand => exact Nat.lt_succ_of_le operand.suffix.length_le
  | group inner =>
    have := inner.suffix.length_le
    simp only [List.length_cons] at *
    omega
  | unclosed => exact Nat.succ_pos _

/-- Whether the reading in a place comes to an end, with a phrase or with a fault. -/
def Ends (lenient : Bool) (place : Place) (tokens : List Token) : Prop :=
  (∃ phrase rest, Reads lenient place tokens phrase rest) ∨
    ∃ fault rest, Fails lenient place tokens fault rest

namespace Ends

variable {lenient : Bool} {place part : Place} {tokens later rest : List Token} {phrase : Phrase}

theorem read (h : Reads lenient place tokens phrase rest) : Ends lenient place tokens :=
  .inl ⟨phrase, rest, h⟩

theorem refused {fault : ParseError} (h : Refuses lenient place tokens fault rest) :
    Ends lenient place tokens := .inr ⟨fault, rest, .here h⟩

/-- Goes on with the phrase of a part. If the part fails, so does the place. -/
theorem andThen (h : Ends lenient part later) (enters : Enters lenient place tokens part later)
    (goesOn : ∀ phrase rest, Reads lenient part later phrase rest → Ends lenient place tokens) :
    Ends lenient place tokens := by
  obtain ⟨phrase, rest, reads⟩ | ⟨fault, rest, fails⟩ := h
  · exact goesOn phrase rest reads
  · exact .inr ⟨fault, rest, .inside enters fails⟩

/-- Ends of the shorter lists of tokens. -/
abbrev Below (lenient : Bool) (bound : Nat) : Prop :=
  ∀ (place : Place) (later : List Token), later.length < bound → .endOfInput ∉ later →
    Ends lenient place later

theorem call {name : String} {fn : Builtin} (clean : .endOfInput ∉ tokens)
    (called : Builtin.ofSymbol? name = some fn) (below : Below lenient (tokens.length + 1)) :
    Ends lenient .operand (.name name :: tokens) := by
  by_cases opening : nextToken tokens = .symbol "("
  · obtain ⟨inside, rfl⟩ := eq_cons_of_nextToken opening (by simp)
    have clean := fun bad => clean (List.mem_cons_of_mem _ bad)
    have few : inside.length < (Token.symbol "(" :: inside).length + 1 := by
      simp only [List.length_cons]
      omega
    refine (below (.formula 0) inside few clean).andThen (.firstArgument called)
      fun first afterFirst readFirst => ?_
    have clean := fun bad => clean (readFirst.suffix.subset bad)
    by_cases comma : nextToken afterFirst = .symbol ","
    · obtain ⟨afterComma, rfl⟩ := eq_cons_of_nextToken comma (by simp)
      have fewer := readFirst.suffix.length_le
      rw [List.length_cons] at fewer
      refine (below (.formula 0) afterComma (by omega)
        fun bad => clean (List.mem_cons_of_mem _ bad)).andThen (.secondArgument called readFirst)
        fun second afterSecond readSecond => ?_
      by_cases closing : nextToken afterSecond = .symbol ")"
      · obtain ⟨rest, rfl⟩ := eq_cons_of_nextToken closing (by simp)
        exact .read (.call called readFirst readSecond)
      · exact .refused (.closeCall called readFirst readSecond closing)
    · exact .refused (.callComma called readFirst comma)
  · exact .refused (.openCall called opening)

theorem name {name : String} (clean : .endOfInput ∉ tokens)
    (below : Below lenient (tokens.length + 1)) :
    Ends lenient .operand (.name name :: tokens) := by
  by_cases kind : isPropertyKind name = true
  · cases missing : firstMissing Expectation.ofReference tokens with
    | some found => exact .refused (.reference kind missing)
    | none =>
      obtain ⟨object, qualifier, rest, rfl⟩ := reference_of_firstMissing missing
      exact .read (.reference kind)
  · cases called : Builtin.ofSymbol? name with
    | some fn => exact call clean called below
    | none =>
      have free : isReserved name = false := by
        rw [isReserved, called, Bool.eq_false_iff.mpr kind]
        rfl
      by_cases opening : nextToken tokens = .symbol "("
      · obtain ⟨inside, rfl⟩ := eq_cons_of_nextToken opening (by simp)
        exact .refused (.unknownFunction free)
      · exact .read (.bare free opening)

theorem symbol {text : String} (clean : .endOfInput ∉ tokens)
    (below : Below lenient (tokens.length + 1)) :
    Ends lenient .operand (.symbol text :: tokens) := by
  by_cases opening : text = "("
  · subst opening
    refine (below (.formula 0) tokens (Nat.lt_succ_self _) clean).andThen .group
      fun inner rest reads => ?_
    by_cases closing : nextToken rest = .symbol ")"
    · obtain ⟨later, rfl⟩ := eq_cons_of_nextToken closing (by simp)
      exact .read (.group reads)
    · cases rest with
      | cons token later =>
        exact .refused (.group reads closing fun ended => absurd ended (reads.ne_endOfInput clean))
      | nil =>
        cases lenient with
        | true => exact .read (.unclosed rfl reads)
        | false => exact .refused (.group reads closing fun _ => rfl)
  · cases found : PrefixOp.ofSymbol? text with
    | some op =>
      exact (below (.formula op.precedence) tokens (Nat.lt_succ_self _) clean).andThen
        (.prefixed found) fun operand rest reads => .read (.prefixed found reads)
    | none =>
      refine .refused (.unexpected ?_)
      simp [Token.beginsOperand, opening, found]

theorem operand (clean : .endOfInput ∉ tokens) (below : Below lenient tokens.length) :
    Ends lenient .operand tokens := by
  cases tokens with
  | nil => exact .refused (.unexpected rfl)
  | cons token tokens =>
    have cleanTail := fun bad => clean (List.mem_cons_of_mem token bad)
    cases token with
    | number digits =>
      cases word : wordOfDigits? digits with
      | some value => exact .read (.number (word ▸ rfl))
      | none => exact .refused (.number word)
    | name => exact name cleanTail below
    | symbol => exact symbol cleanTail below
    | string | endOfInput => exact .refused (.unexpected rfl)

theorem infixTail {least : Nat} {chain : Phrase} (clean : .endOfInput ∉ tokens)
    (below : Below lenient tokens.length) : Ends lenient (.infixTail least chain) tokens := by
  cases taken : takesInfix least (nextToken tokens) with
  | none => exact .read (.infixEnd taken)
  | some op =>
    obtain ⟨tail, same⟩ := eq_cons_of_nextToken rfl (ne_endOfInput_of_takesInfix taken)
    rw [same] at clean below ⊢
    have clean := fun bad => clean (List.mem_cons_of_mem _ bad)
    refine (below _ tail (Nat.lt_succ_self _) clean).andThen (.right taken)
      fun right afterRight readRight => ?_
    cases afterRight with
    | nil => exact .read (.infixMore taken readRight (.infixEnd rfl))
    | cons next later =>
      have fewer := readRight.suffix.length_le
      refine (below _ (next :: later) (Nat.lt_succ_of_le fewer)
        fun bad => clean (readRight.suffix.subset bad)).andThen (.infixMore taken readRight)
        fun whole rest readWhole => .read (.infixMore taken readRight readWhole)

theorem conditionalTail {least : Nat} {condition : Phrase} (clean : .endOfInput ∉ tokens)
    (below : Below lenient tokens.length) :
    Ends lenient (.conditionalTail least condition) tokens := by
  cases taken : takesConditional least (nextToken tokens) with
  | false => exact .read (.conditionalEnd taken)
  | true =>
    obtain ⟨tail, same⟩ := eq_cons_of_nextToken rfl (ne_endOfInput_of_takesConditional taken)
    rw [same] at clean below ⊢
    have clean := fun bad => clean (List.mem_cons_of_mem _ bad)
    refine (below _ tail (Nat.lt_succ_self _) clean).andThen (.firstBranch taken)
      fun first afterFirst readFirst => ?_
    have clean := fun bad => clean (readFirst.suffix.subset bad)
    by_cases marker : nextToken afterFirst = .symbol Conditional.marker
    · obtain ⟨afterMarker, rfl⟩ := eq_cons_of_nextToken marker (by simp)
      have fewer := readFirst.suffix.length_le
      rw [List.length_cons] at fewer
      refine (below _ afterMarker (by simp only [List.length_cons]; omega)
        fun bad => clean (List.mem_cons_of_mem _ bad)).andThen (.secondBranch taken readFirst)
        fun second afterSecond readSecond => ?_
      -- The second branch leaves no conditional, so that the tail ends behind it.
      obtain ⟨-, -, -, stops⟩ := readSecond.done trivial
      obtain ⟨-, rfl⟩ := takesConditional_iff.mp taken
      exact .read (.conditionalMore taken readFirst readSecond (.conditionalEnd stops))
    · exact .refused (.conditionalMarker taken readFirst marker)

theorem formula {least : Nat} (clean : .endOfInput ∉ tokens) (below : Below lenient tokens.length) :
    Ends lenient (.formula least) tokens := by
  refine (operand clean below).andThen .operand fun first afterFirst readFirst => ?_
  have clean := fun bad => clean (readFirst.suffix.subset bad)
  have fewer := readFirst.length_lt
  cases afterFirst with
  | nil => exact .read (.formula readFirst (.infixEnd rfl) (.conditionalEnd rfl))
  | cons next later =>
    refine (below (.infixTail least first) _ fewer clean).andThen (.infixTail readFirst)
      fun chain afterChain readChain => ?_
    have clean := fun bad => clean (readChain.suffix.subset bad)
    have fewer := Nat.lt_of_le_of_lt readChain.suffix.length_le fewer
    cases afterChain with
    | nil => exact .read (.formula readFirst readChain (.conditionalEnd rfl))
    | cons next later =>
      exact (below (.conditionalTail least chain) _ fewer clean).andThen
        (.conditionalTail readFirst readChain)
        fun whole rest readWhole => .read (.formula readFirst readChain readWhole)

end Ends

theorem reads_or_fails (lenient : Bool) (place : Place) {tokens : List Token}
    (clean : .endOfInput ∉ tokens) : Ends lenient place tokens := by
  -- Each part is entered with fewer tokens left, but for the operand that a formula begins with.
  induction length : tokens.length using Nat.strongRecOn generalizing place tokens with
  | ind bound ih =>
    subst length
    have below : Ends.Below lenient tokens.length :=
      fun place later few clean => ih later.length few place clean rfl
    cases place with
    | formula => exact .formula clean below
    | infixTail => exact .infixTail clean below
    | conditionalTail => exact .conditionalTail clean below
    | operand => exact .operand clean below

/-! ### Other tokens behind -/

section

variable {lenient : Bool} {place part : Place} {tokens later rest : List Token} {fault : ParseError}

theorem eq_cons_of_head? {token : Token} {other : List Token}
    (same : other.head? = (token :: rest).head?) : ∃ later, other = token :: later :=
  List.head?_eq_some_iff.mp same

theorem firstMissing_append {expected : List Expectation} {what : Expectation}
    (missing : firstMissing expected tokens = some (what, rest)) :
    ∃ read, tokens = read ++ rest ∧ ∀ other : List Token, other.head? = rest.head? →
      firstMissing expected (read ++ other) = some (what, other) := by
  induction expected generalizing tokens with
  | nil => cases missing
  | cons next expected ih =>
    obtain ⟨token, later, rfl, accepted⟩ | refused := next.accepts_cases tokens
    · rw [firstMissing_accepted accepted] at missing
      obtain ⟨read, rfl, again⟩ := ih missing
      refine ⟨token :: read, rfl, fun other behind => ?_⟩
      exact (firstMissing_accepted accepted).trans (again other behind)
    · rw [firstMissing_refused refused] at missing
      cases missing
      refine ⟨[], rfl, fun other behind => ?_⟩
      rw [← nextToken_congr behind] at refused
      exact firstMissing_refused refused

theorem Refuses.reread (h : Refuses lenient place tokens fault rest) :
    ∃ read, tokens = read ++ rest ∧ ∀ other : List Token, other.head? = rest.head? →
      Refuses lenient place (read ++ other) fault other := by
  cases h with
  | unexpected refused =>
    refine ⟨[], rfl, fun other same => ?_⟩
    rw [← nextToken_congr same] at refused ⊢
    exact .unexpected refused
  | number tooLarge =>
    refine ⟨[], rfl, fun other same => ?_⟩
    obtain ⟨later, rfl⟩ := eq_cons_of_head? same
    exact .number tooLarge
  | @unknownFunction name _ free =>
    refine ⟨[.name name], rfl, fun other same => ?_⟩
    obtain ⟨later, rfl⟩ := eq_cons_of_head? same
    exact .unknownFunction free
  | @reference kind _ _ _ found missing =>
    obtain ⟨read, rfl, again⟩ := firstMissing_append missing
    refine ⟨.name kind :: read, rfl, fun other same => ?_⟩
    rw [← nextToken_congr same]
    exact .reference found (again other same)
  | @openCall name _ _ called refused =>
    refine ⟨[.name name], rfl, fun other same => ?_⟩
    rw [← nextToken_congr same] at refused ⊢
    exact .openCall called refused
  | @callComma name _ _ _ _ called first refused =>
    obtain ⟨read, rfl, again⟩ := first.reread
    refine ⟨.name name :: .symbol "(" :: read, rfl, fun other same => ?_⟩
    rw [← nextToken_congr same] at refused ⊢
    exact .callComma called (again other same) refused
  | @closeCall name _ _ _ _ _ _ called first second refused =>
    obtain ⟨readFirst, rfl, againFirst⟩ := first.reread
    obtain ⟨readSecond, rfl, againSecond⟩ := second.reread
    refine ⟨.name name :: .symbol "(" :: (readFirst ++ .symbol "," :: readSecond), by simp,
      fun other same => ?_⟩
    rw [← nextToken_congr same] at refused ⊢
    have again := Refuses.closeCall called (againFirst (.symbol "," :: (readSecond ++ other)) rfl)
      (againSecond other same) refused
    simpa using again
  | group inner refused unclosed =>
    obtain ⟨read, rfl, again⟩ := inner.reread
    refine ⟨.symbol "(" :: read, rfl, fun other same => ?_⟩
    rw [← nextToken_congr same] at refused unclosed ⊢
    exact .group (again other same) refused unclosed
  | @conditionalMarker _ _ _ token _ _ taken first refused =>
    obtain ⟨read, rfl, again⟩ := first.reread
    refine ⟨token :: read, rfl, fun other same => ?_⟩
    rw [← nextToken_congr same] at refused ⊢
    exact .conditionalMarker taken (again other same) refused

theorem Enters.reread (h : Enters lenient place tokens part later) :
    ∃ read, tokens = read ++ later ∧ ∀ other : List Token, other.head? = later.head? →
      Enters lenient place (read ++ other) part other := by
  cases h with
  | operand => exact ⟨[], rfl, fun _ _ => .operand⟩
  | infixTail first =>
    obtain ⟨read, rfl, again⟩ := first.reread
    refine ⟨read, rfl, fun other same => ?_⟩
    obtain ⟨later, rfl⟩ := eq_cons_of_head? same
    exact .infixTail (again _ same)
  | conditionalTail first chain =>
    obtain ⟨readFirst, rfl, againFirst⟩ := first.reread
    obtain ⟨readChain, rfl, againChain⟩ := chain.reread
    refine ⟨readFirst ++ readChain, by simp, fun other same => ?_⟩
    obtain ⟨later, rfl⟩ := eq_cons_of_head? same
    rw [List.append_assoc]
    exact .conditionalTail (againFirst _ (head?_append_congr readChain same)) (againChain _ same)
  | @right _ _ token _ _ taken => exact ⟨[token], rfl, fun _ _ => .right taken⟩
  | @infixMore _ _ _ token _ _ _ _ taken right =>
    obtain ⟨read, rfl, again⟩ := right.reread
    refine ⟨token :: read, rfl, fun other same => ?_⟩
    obtain ⟨later, rfl⟩ := eq_cons_of_head? same
    exact .infixMore taken (again _ same)
  | @firstBranch _ _ token _ taken => exact ⟨[token], rfl, fun _ _ => .firstBranch taken⟩
  | @secondBranch _ _ _ token _ _ taken first =>
    obtain ⟨read, rfl, again⟩ := first.reread
    refine ⟨token :: (read ++ [.symbol Conditional.marker]), by simp, fun other _ => ?_⟩
    simpa using Enters.secondBranch taken (again (.symbol Conditional.marker :: other) rfl)
  | @firstArgument name _ _ called =>
    exact ⟨[.name name, .symbol "("], rfl, fun _ _ => .firstArgument called⟩
  | @secondArgument name _ _ _ _ called first =>
    obtain ⟨read, rfl, again⟩ := first.reread
    refine ⟨.name name :: .symbol "(" :: (read ++ [.symbol ","]), by simp, fun other _ => ?_⟩
    simpa using Enters.secondArgument called (again (.symbol "," :: other) rfl)
  | @prefixed text _ _ found => exact ⟨[.symbol text], rfl, fun _ _ => .prefixed found⟩
  | group => exact ⟨[.symbol "("], rfl, fun _ _ => .group⟩

/-- The fault depends on the tokens accepted and on the one behind them. -/
theorem Fails.reread (h : Fails lenient place tokens fault rest) :
    ∃ read, tokens = read ++ rest ∧ ∀ other : List Token, other.head? = rest.head? →
      Fails lenient place (read ++ other) fault other := by
  induction h with
  | here refuses =>
    obtain ⟨read, split, again⟩ := refuses.reread
    exact ⟨read, split, fun other same => .here (again other same)⟩
  | inside enters _ ih =>
    obtain ⟨front, rfl, again⟩ := enters.reread
    obtain ⟨read, rfl, inner⟩ := ih
    refine ⟨front ++ read, by simp, fun other same => ?_⟩
    rw [List.append_assoc]
    exact .inside (again _ (head?_append_congr read same)) (inner other same)

end

end TableFormula
