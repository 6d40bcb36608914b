import TableFormula.Proofs.ReaderStream
import TableFormula.Proofs.WellGroupedReading

/-!
Where reading finds a phrase, the readers give its formula, or report that it lies too deep, and they
do so exactly by its nesting and the height of its formula. Conversely, what the readers give is the
formula of a phrase that reading finds.
-/

namespace TableFormula

open TokenSource

/-! ### The limit of depth -/

namespace Phrase

/-- Whether a phrase with `depth` formulas around it keeps within the limit. -/
def Within (limit : Nat) (owner : Owner) (depth : Nat) (phrase : Phrase) : Prop :=
  depth + phrase.nest ≤ limit ∧ (phrase.formula owner).height ≤ limit

instance (limit : Nat) (owner : Owner) (depth : Nat) :
    DecidablePred (Within limit owner depth) := fun _ => inferInstanceAs (Decidable (_ ∧ _))

def parsed (owner : Owner) (phrase : Phrase) (source : TokenStream) : Parsed TokenStream :=
  { formula := phrase.formula owner, height := (phrase.formula owner).height, source }

def outcome (options : Options) (owner : Owner) (depth : Nat) (phrase : Phrase)
    (source : TokenStream) : Except ParseError (Parsed TokenStream) :=
  if phrase.Within options.maxDepth owner depth then .ok (phrase.parsed owner source)
  else .error (.tooDeep options.maxDepth)

end Phrase

section

variable {options : Options} {owner : Owner} {depth inside : Nat} {first whole : Phrase}
  {source later : TokenStream}

theorem bind_outcome {x : Except ParseError (Parsed TokenStream)}
    {f : Parsed TokenStream → Except ParseError (Parsed TokenStream)}
    (found : x = first.outcome options owner inside source)
    (within : whole.Within options.maxDepth owner depth →
      first.Within options.maxDepth owner inside)
    (next : first.Within options.maxDepth owner inside →
      f (first.parsed owner source) = whole.outcome options owner depth later) :
    x >>= f = whole.outcome options owner depth later := by
  subst found
  unfold Phrase.outcome at next ⊢
  by_cases fits : first.Within options.maxDepth owner inside
  · rw [if_pos fits]
    exact next fits
  · rw [if_neg fits, if_neg fun inner => fits (within inner)]
    rfl

theorem node_eq_outcome (whole : Phrase) {partHeight : Nat} (nested : depth + whole.nest ≤ options.maxDepth)
    (height : (whole.formula owner).height = partHeight + 1) :
    node options (whole.formula owner) partHeight source =
      whole.outcome options owner depth source := by
  unfold node
  by_cases low : partHeight + 1 ≤ options.maxDepth
  · rw [if_neg (Nat.not_lt.mpr low), Phrase.outcome, if_pos ⟨nested, height ▸ low⟩, Phrase.parsed,
      height]
  · rw [if_pos (Nat.not_le.mp low), Phrase.outcome, if_neg fun within => low (height ▸ within.2)]

theorem outcome_of_deep (deep : options.maxDepth ≤ depth) :
    whole.outcome options owner depth source = .error (.tooDeep options.maxDepth) := by
  have := whole.nest_pos
  exact if_neg fun within => absurd within.1 (by omega)

theorem within_group {limit : Nat} :
    (Phrase.group whole).Within limit owner depth ↔ whole.Within limit owner (depth + 1) := by
  simp only [Phrase.Within, Phrase.nest, Phrase.formula]
  omega

theorem outcome_of_leaf (reached : depth < options.maxDepth) (nest : whole.nest = 1)
    (height : (whole.formula owner).height = 1) :
    whole.outcome options owner depth source = .ok (leaf (whole.formula owner) source) := by
  rw [Phrase.outcome, if_pos ⟨by omega, by omega⟩, Phrase.parsed, height, leaf]

theorem outcome_of_within (within : whole.Within options.maxDepth owner depth) :
    whole.outcome options owner depth source = .ok (whole.parsed owner source) := if_pos within

end

namespace Place

/-- Whether the phrase of a tail lies no deeper than what is read. -/
def Grows : Place → Phrase → Prop
  | .infixTail _ part, whole | .conditionalTail _ part, whole =>
    part.nest ≤ whole.nest ∧ ∀ owner, (part.formula owner).height ≤ (whole.formula owner).height
  | .formula _, _ | .operand, _ => True

/-- What the readers do in a place with `depth` formulas around it. -/
def run (options : Options) (owner : Owner) (depth : Nat) (stream : TokenStream) :
    Place → Except ParseError (Parsed TokenStream)
  | .formula least => expr options owner depth least stream
  | .infixTail least chain =>
    TableFormula.infixTail options owner (depth + 1) least (chain.parsed owner stream)
  | .conditionalTail least condition =>
    TableFormula.conditionalTail options owner (depth + 1) least (condition.parsed owner stream)
  | .operand => TableFormula.operand options owner (depth + 1) stream

/-- Whether the readers come to a place at all within the limit. -/
def Reached (limit : Nat) (owner : Owner) (depth : Nat) : Place → Prop
  | .formula _ => True
  | .infixTail _ part | .conditionalTail _ part => part.Within limit owner depth
  | .operand => depth < limit

end Place

namespace Reads

variable {lenient : Bool} {place : Place} {tokens rest : List Token} {phrase : Phrase}

theorem grows (h : Reads lenient place tokens phrase rest) : place.Grows phrase := by
  induction h with
  | infixEnd | conditionalEnd => exact ⟨Nat.le_refl _, fun _ => Nat.le_refl _⟩
  | infixMore _ _ _ _ ihWhole =>
    obtain ⟨nest, height⟩ := ihWhole
    refine ⟨?_, fun owner => ?_⟩
    · simp only [Phrase.nest] at nest
      omega
    · have := height owner
      simp only [Phrase.formula, Formula.height] at this
      omega
  | conditionalMore _ _ _ _ _ _ ihWhole =>
    obtain ⟨nest, height⟩ := ihWhole
    refine ⟨?_, fun owner => ?_⟩
    · simp only [Phrase.nest] at nest
      omega
    · have := height owner
      simp only [Phrase.formula, Formula.height] at this
      omega
  | formula | number | bare | reference | call | prefixed | group | unclosed => trivial

theorem within_of_infixTail {limit least depth : Nat} {owner : Owner} {chain : Phrase}
    (h : Reads lenient (.infixTail least chain) tokens phrase rest)
    (within : phrase.Within limit owner depth) : chain.Within limit owner depth :=
  ⟨Nat.le_trans (Nat.add_le_add_left h.grows.1 depth) within.1,
    Nat.le_trans (h.grows.2 owner) within.2⟩

theorem within_of_conditionalTail {limit least depth : Nat} {owner : Owner} {condition : Phrase}
    (h : Reads lenient (.conditionalTail least condition) tokens phrase rest)
    (within : phrase.Within limit owner depth) : condition.Within limit owner depth :=
  ⟨Nat.le_trans (Nat.add_le_add_left h.grows.1 depth) within.1,
    Nat.le_trans (h.grows.2 owner) within.2⟩

theorem ends (h : Reads lenient place tokens phrase rest) {fault : Option LexFault}
    (sound : rest = [] → fault = none) : tokens = [] → fault = none := by
  rintro rfl
  exact sound (List.suffix_nil.mp h.suffix)

end Reads

/-! ### From phrases to the readers -/

namespace Phrase.Within

variable {limit depth : Nat} {owner : Owner} {condition first second : Phrase}

theorem operand {op : PrefixOp} (h : (prefixed op first).Within limit owner depth) :
    first.Within limit owner (depth + 1) := by
  simp only [Within, nest, Phrase.formula, Formula.height] at h ⊢
  omega

theorem right {op : InfixOp} (h : (between op first second).Within limit owner depth) :
    second.Within limit owner (depth + 1) := by
  simp only [Within, nest, Phrase.formula, Formula.height] at h ⊢
  omega

theorem branches (h : (conditional condition first second).Within limit owner depth) :
    first.Within limit owner (depth + 1) ∧ second.Within limit owner (depth + 1) := by
  simp only [Within, nest, Phrase.formula, Formula.height] at h ⊢
  omega

theorem arguments {fn : Builtin} (h : (call fn first second).Within limit owner depth) :
    first.Within limit owner (depth + 1) ∧ second.Within limit owner (depth + 1) := by
  simp only [Within, nest, Phrase.formula, Formula.height] at h ⊢
  omega

end Phrase.Within

/-- Whether the readers give the outcome of a phrase wherever they come to the place. -/
def Place.Runs (options : Options) (owner : Owner) (place : Place) (tokens : List Token)
    (phrase : Phrase) (rest : List Token) : Prop :=
  ∀ fault : Option LexFault, (rest = [] → fault = none) →
    ∀ depth, place.Reached options.maxDepth owner depth →
      place.run options owner depth ⟨tokens, fault⟩ =
        phrase.outcome options owner depth ⟨rest, fault⟩

namespace Place.Runs

variable {options : Options} {owner : Owner} {least : Nat} {token : Token}
  {tokens afterFirst afterSecond rest : List Token} {first second whole : Phrase}

theorem infixMore {op : InfixOp} (taken : takesInfix least token = some op)
    (wholeRead : Reads options.allowUnclosedParens (.infixTail least (.between op first second))
      afterSecond whole rest)
    (secondRuns : (Place.formula op.operandLevel).Runs options owner tokens second afterSecond)
    (wholeRuns : (Place.infixTail least (.between op first second)).Runs options owner afterSecond
      whole rest) :
    (Place.infixTail least first).Runs options owner (token :: tokens) whole rest := by
  intro fault sound depth within
  refine (infixTail_more taken).trans ?_
  refine bind_outcome (secondRuns fault (wholeRead.ends sound) (depth + 1) trivial)
    (fun fits => (wholeRead.within_of_infixTail fits).right) fun fits => ?_
  refine bind_outcome (node_eq_outcome (.between op first second) ?_ rfl)
    wholeRead.within_of_infixTail fun fits => wholeRuns fault sound depth fits
  have := within.1
  have := fits.1
  simp only [Phrase.nest]
  omega

theorem conditionalMore {condition : Phrase} (taken : takesConditional least token = true)
    (wholeRead : Reads options.allowUnclosedParens
      (.conditionalTail least (.conditional condition first second)) afterSecond whole rest)
    (firstRuns : (Place.formula Conditional.operandLevel).Runs options owner tokens first
      (.symbol Conditional.marker :: afterFirst))
    (secondRuns : (Place.formula Conditional.operandLevel).Runs options owner afterFirst second
      afterSecond)
    (wholeRuns : (Place.conditionalTail least (.conditional condition first second)).Runs options
      owner afterSecond whole rest) :
    (Place.conditionalTail least condition).Runs options owner (token :: tokens) whole rest := by
  intro fault sound depth within
  refine (conditionalTail_more taken).trans ?_
  refine bind_outcome (firstRuns fault sound_cons (depth + 1) trivial)
    (fun fits => (wholeRead.within_of_conditionalTail fits).branches.1) fun fitsFirst => ?_
  rw [Phrase.parsed, expect_stream rfl, ok_bind]
  refine bind_outcome (secondRuns fault (wholeRead.ends sound) (depth + 1) trivial)
    (fun fits => (wholeRead.within_of_conditionalTail fits).branches.2) fun fitsSecond => ?_
  refine bind_outcome (node_eq_outcome (.conditional condition first second) ?_ rfl)
    wholeRead.within_of_conditionalTail fun fits => wholeRuns fault sound depth fits
  have := within.1
  have := fitsFirst.1
  have := fitsSecond.1
  simp only [Phrase.nest]
  omega

theorem call {name : String} {fn : Builtin} (called : Builtin.ofSymbol? name = some fn)
    (firstRuns : (Place.formula 0).Runs options owner tokens first (.symbol "," :: afterFirst))
    (secondRuns : (Place.formula 0).Runs options owner afterFirst second (.symbol ")" :: rest)) :
    Place.operand.Runs options owner (.name name :: .symbol "(" :: tokens) (.call fn first second)
      rest := by
  intro fault sound depth reached
  refine (operand_call called).trans ?_
  rw [expect_stream rfl, ok_bind]
  refine bind_outcome (firstRuns fault sound_cons (depth + 1) trivial)
    (fun fits => fits.arguments.1) fun fitsFirst => ?_
  rw [Phrase.parsed, expect_stream rfl, ok_bind]
  refine bind_outcome (secondRuns fault sound_cons (depth + 1) trivial)
    (fun fits => fits.arguments.2) fun fitsSecond => ?_
  rw [Phrase.parsed, expect_stream rfl, ok_bind]
  refine node_eq_outcome (.call fn first second) ?_ rfl
  have := fitsFirst.1
  have := fitsSecond.1
  simp only [Phrase.nest]
  omega

theorem prefixed {text : String} {op : PrefixOp} (found : PrefixOp.ofSymbol? text = some op)
    (operandRuns : (Place.formula op.precedence).Runs options owner tokens first rest) :
    Place.operand.Runs options owner (.symbol text :: tokens) (.prefixed op first) rest := by
  intro fault sound depth reached
  refine (operand_prefixed found).trans ?_
  refine bind_outcome (operandRuns fault sound (depth + 1) trivial) (fun fits => fits.operand)
    fun fits => ?_
  refine node_eq_outcome (.prefixed op first) ?_ rfl
  have := fits.1
  simp only [Phrase.nest]
  omega

end Place.Runs

namespace Reads

variable {options : Options} {place : Place} {tokens rest : List Token} {phrase : Phrase}

/-- Where reading finds a phrase, the readers give its outcome. -/
theorem run (owner : Owner) (h : Reads options.allowUnclosedParens place tokens phrase rest) :
    place.Runs options owner tokens phrase rest := by
  -- The limit is met in the order of the reading: a part that is too deep stops the run before the
  -- whole is built, and the whole is then too deep as well.
  induction h with
  | formula firstRead chainRead wholeRead ihFirst ihChain ihWhole =>
    intro fault sound depth _
    have soundChain := wholeRead.ends sound
    have soundFirst := chainRead.ends soundChain
    show expr options owner depth _ _ = _
    rw [expr_eq]
    by_cases limit : options.maxDepth ≤ depth
    · rw [if_pos limit, outcome_of_deep limit]
    · rw [if_neg limit]
      refine bind_outcome (ihFirst fault soundFirst depth (Nat.lt_of_not_le limit))
        (fun within => chainRead.within_of_infixTail (wholeRead.within_of_conditionalTail within))
        fun fits => ?_
      refine bind_outcome (ihChain fault soundChain depth fits) wholeRead.within_of_conditionalTail
        fun fits => ?_
      exact ihWhole fault sound depth fits
  | infixEnd stops =>
    intro fault sound depth within
    rw [outcome_of_within within]
    exact infixTail_end stops sound
  | infixMore taken _ wholeRead ihRight ihWhole => exact .infixMore taken wholeRead ihRight ihWhole
  | conditionalEnd stops =>
    intro fault sound depth within
    rw [outcome_of_within within]
    exact conditionalTail_end stops sound
  | conditionalMore taken _ _ wholeRead ihFirst ihSecond ihWhole =>
    exact .conditionalMore taken wholeRead ihFirst ihSecond ihWhole
  | @number digits tokens word =>
    intro fault sound depth reached
    obtain ⟨value, found⟩ := Option.isSome_iff_exists.mp word
    rw [outcome_of_leaf reached rfl rfl]
    refine (operand_number digits).trans ?_
    simp only [TableFormula.number, found, Phrase.formula, Option.getD_some]
  | @bare name tokens free noCall =>
    intro fault sound depth reached
    rw [outcome_of_leaf reached rfl rfl]
    refine (operand_bare free).trans ?_
    rw [bareName_stream sound, if_neg noCall]
    rfl
  | reference kind =>
    intro fault sound depth reached
    rw [outcome_of_leaf reached rfl rfl]
    exact operand_reference kind
  | call called _ _ ihFirst ihSecond => exact .call called ihFirst ihSecond
  | prefixed found _ ih => exact .prefixed found ih
  | group _ ih =>
    intro fault sound depth reached
    refine operand_group.trans ?_
    refine bind_outcome (ih fault sound_cons (depth + 1) trivial) within_group.mp fun fits => ?_
    rw [outcome_of_within (within_group.mpr fits)]
    exact closeParenthesis_closed
  | unclosed tolerated _ ih =>
    intro fault sound depth reached
    obtain rfl := sound rfl
    refine operand_group.trans ?_
    refine bind_outcome (ih none sound (depth + 1) trivial) within_group.mp fun fits => ?_
    rw [outcome_of_within (within_group.mpr fits)]
    exact closeParenthesis_end tolerated

end Reads

/-! ### From the readers to phrases -/

/-- Whether a result, where there is one, is that of a phrase which reading finds in the place. -/
def Place.Faithful (lenient : Bool) (owner : Owner) (place : Place) (stream : TokenStream)
    (result : Except ParseError (Parsed TokenStream)) : Prop :=
  .endOfInput ∉ stream.tokens → ∀ parsed, result = .ok parsed → ∃ phrase rest,
    Reads lenient place stream.tokens phrase rest ∧
      parsed = phrase.parsed owner { stream with tokens := rest } ∧
      (place ≠ .operand → rest = [] → stream.fault = none)

section

variable {options : Options} {owner : Owner} {depth least : Nat} {tokens : List Token}
  {fault : Option LexFault} {parsed : Parsed TokenStream}

theorem reads_of_faithful
    (faithful : (Place.formula least).Faithful options.allowUnclosedParens owner ⟨tokens, fault⟩
      (expr options owner depth least ⟨tokens, fault⟩)) (clean : .endOfInput ∉ tokens)
    (h : expr options owner depth least ⟨tokens, fault⟩ = .ok parsed) :
    ∃ phrase rest, Reads options.allowUnclosedParens (.formula least) tokens phrase rest ∧
      parsed = phrase.parsed owner ⟨rest, fault⟩ ∧ rest.length < tokens.length ∧
      .endOfInput ∉ rest := by
  obtain ⟨phrase, rest, reads, rfl, -⟩ := faithful clean parsed h
  exact ⟨phrase, rest, reads, rfl, left_of_expr h, fun bad => clean (reads.suffix.subset bad)⟩

variable {bound : Nat} (exprs : ∀ depth least (later : TokenStream), later.tokens.length < bound →
  (Place.formula least).Faithful options.allowUnclosedParens owner later
    (expr options owner depth least later))
include exprs

theorem group_faithful (few : tokens.length < bound) :
    Place.operand.Faithful options.allowUnclosedParens owner ⟨.symbol "(" :: tokens, fault⟩
      (expr options owner depth 0 ⟨tokens, fault⟩ >>= closeParenthesis options) := by
  intro clean parsed h
  obtain ⟨inner, read, closed⟩ := ok_of_bind h
  obtain ⟨phrase, rest, reads, rfl, -, clean⟩ := reads_of_faithful
    (exprs _ _ _ few) (fun bad => clean (List.mem_cons_of_mem _ bad)) read
  obtain ⟨behind, rfl, rfl⟩ | ⟨rfl, tolerated, rfl⟩ := closeParenthesis_ok clean closed
  · exact ⟨.group phrase, behind, .group reads, rfl, fun other => absurd rfl other⟩
  · exact ⟨.group phrase, [], .unclosed tolerated reads, rfl, fun other => absurd rfl other⟩

theorem prefixed_faithful {text : String} {op : PrefixOp} (few : tokens.length < bound)
    (found : PrefixOp.ofSymbol? text = some op) :
    Place.operand.Faithful options.allowUnclosedParens owner ⟨.symbol text :: tokens, fault⟩ (do
      let inner ← expr options owner depth op.precedence ⟨tokens, fault⟩
      node options (.unary op inner.formula) inner.height inner.source) := by
  intro clean parsed h
  obtain ⟨inner, read, made⟩ := ok_of_bind h
  obtain ⟨phrase, rest, reads, rfl, -, -⟩ := reads_of_faithful
    (exprs _ _ _ few) (fun bad => clean (List.mem_cons_of_mem _ bad)) read
  obtain rfl := node_ok made
  exact ⟨.prefixed op phrase, rest, .prefixed found reads, rfl, fun other => absurd rfl other⟩

theorem call_faithful {name : String} {fn : Builtin} (few : tokens.length ≤ bound)
    (called : Builtin.ofSymbol? name = some fn) :
    Place.operand.Faithful options.allowUnclosedParens owner ⟨.name name :: tokens, fault⟩ (do
      let opening ← expect .openCall (⟨tokens, fault⟩ : TokenStream)
      let first ← expr options owner depth 0 opening.rest
      let comma ← expect .callComma first.source
      let second ← expr options owner depth 0 comma.rest
      let closing ← expect .closeCall second.source
      node options (.binary (.call fn) first.formula second.formula)
        (max first.height second.height) closing.rest) := by
  intro clean parsed h
  obtain ⟨opening, opened, h⟩ := ok_of_bind h
  obtain ⟨token, tokens, rfl, accepted, rfl⟩ := expect_ok opened
  obtain rfl := Token.isSymbol_iff.mp accepted
  have clean := fun bad => clean (List.mem_cons_of_mem _ (List.mem_cons_of_mem _ bad))
  obtain ⟨first, read, h⟩ := ok_of_bind h
  obtain ⟨phrase, afterFirst, reads, rfl, fewer, clean⟩ :=
    reads_of_faithful (exprs _ _ _ few) clean read
  obtain ⟨comma, divided, h⟩ := ok_of_bind h
  obtain ⟨token, afterComma, rfl, accepted, rfl⟩ := expect_ok divided
  obtain rfl := Token.isSymbol_iff.mp accepted
  have clean := fun bad => clean (List.mem_cons_of_mem _ bad)
  have fewer : afterComma.length < bound := Nat.lt_trans (Nat.lt_of_succ_lt fewer) few
  obtain ⟨second, read, h⟩ := ok_of_bind h
  obtain ⟨phrase', afterSecond, reads', rfl, -, -⟩ :=
    reads_of_faithful (exprs _ _ _ fewer) clean read
  obtain ⟨closing, closed, h⟩ := ok_of_bind h
  obtain ⟨token, rest, rfl, accepted, rfl⟩ := expect_ok closed
  obtain rfl := Token.isSymbol_iff.mp accepted
  obtain rfl := node_ok h
  exact ⟨.call fn phrase phrase', rest, .call called reads reads', rfl,
    fun other => absurd rfl other⟩

theorem infixTail_faithful {part : Phrase} (few : tokens.length ≤ bound)
    (tails : ∀ grown : Parsed TokenStream, left grown.source < tokens.length →
      ∀ part stream, grown = part.parsed owner stream →
        (Place.infixTail least part).Faithful options.allowUnclosedParens owner stream
          (infixTail options owner depth least grown)) :
    (Place.infixTail least part).Faithful options.allowUnclosedParens owner ⟨tokens, fault⟩
      (infixTail options owner depth least (part.parsed owner ⟨tokens, fault⟩)) := by
  intro clean parsed h
  rw [infixTail_eq] at h
  obtain ⟨ahead, looked, h⟩ := ok_of_bind h
  obtain ⟨sound, rfl⟩ := lookahead_ok looked
  dsimp only at h
  cases taken : takesInfix least (nextToken tokens) with
  | none =>
    rw [taken] at h
    cases h
    exact ⟨part, tokens, .infixEnd taken, rfl, fun _ => sound⟩
  | some op =>
    rw [taken] at h
    cases tokens with
    | nil => cases taken
    | cons token tokens =>
      have clean := fun bad => clean (List.mem_cons_of_mem token bad)
      obtain ⟨right, read, h⟩ := ok_of_bind h
      obtain ⟨phrase, afterRight, reads, rfl, fewer, clean⟩ :=
        reads_of_faithful (exprs _ _ ⟨tokens, fault⟩ few) clean read
      obtain ⟨grown, made, h⟩ := ok_of_bind h
      obtain rfl := node_ok made
      let grown := (Phrase.between op part phrase).parsed owner ⟨afterRight, fault⟩
      obtain ⟨whole, rest, readsWhole, rfl, sound⟩ :=
        tails grown (Nat.lt_succ_of_lt fewer) _ _ rfl clean parsed h
      exact ⟨whole, rest, .infixMore taken reads readsWhole, rfl, fun _ => sound nofun⟩

theorem conditionalTail_faithful {part : Phrase} (few : tokens.length ≤ bound)
    (tails : ∀ grown : Parsed TokenStream, left grown.source < tokens.length →
      ∀ part stream, grown = part.parsed owner stream →
        (Place.conditionalTail least part).Faithful options.allowUnclosedParens owner stream
          (conditionalTail options owner depth least grown)) :
    (Place.conditionalTail least part).Faithful options.allowUnclosedParens owner ⟨tokens, fault⟩
      (conditionalTail options owner depth least (part.parsed owner ⟨tokens, fault⟩)) := by
  intro clean parsed h
  rw [conditionalTail_eq] at h
  obtain ⟨ahead, looked, h⟩ := ok_of_bind h
  obtain ⟨sound, rfl⟩ := lookahead_ok looked
  dsimp only at h
  split at h
  · rename_i taken
    cases tokens with
    | nil => cases taken
    | cons token tokens =>
      have clean := fun bad => clean (List.mem_cons_of_mem token bad)
      obtain ⟨first, read, h⟩ := ok_of_bind h
      obtain ⟨phrase, afterFirst, reads, rfl, fewer, clean⟩ :=
        reads_of_faithful (exprs _ _ ⟨tokens, fault⟩ few) clean read
      obtain ⟨marker, marked, h⟩ := ok_of_bind h
      obtain ⟨colon, afterColon, rfl, accepted, rfl⟩ := expect_ok marked
      obtain rfl := Token.isSymbol_iff.mp accepted
      have clean := fun bad => clean (List.mem_cons_of_mem _ bad)
      have fewer : afterColon.length < tokens.length := Nat.lt_of_succ_lt fewer
      obtain ⟨second, read, h⟩ := ok_of_bind h
      obtain ⟨phrase', afterSecond, reads', rfl, fewer', clean⟩ :=
        reads_of_faithful (exprs _ _ ⟨afterColon, fault⟩ (Nat.lt_trans fewer few)) clean read
      obtain ⟨grown, made, h⟩ := ok_of_bind h
      obtain rfl := node_ok made
      let grown := (Phrase.conditional part phrase phrase').parsed owner ⟨afterSecond, fault⟩
      obtain ⟨whole, rest, readsWhole, rfl, sound⟩ :=
        tails grown (Nat.lt_succ_of_lt (Nat.lt_trans fewer' fewer)) _ _ rfl clean parsed h
      exact ⟨whole, rest, .conditionalMore taken reads reads' readsWhole, rfl, fun _ => sound nofun⟩
  · rename_i notTaken
    cases h
    exact ⟨part, tokens, .conditionalEnd (Bool.eq_false_iff.mpr notTaken), rfl, fun _ => sound⟩

theorem operand_faithful (few : tokens.length ≤ bound)
    (values : ∀ token (later : TokenStream), later.tokens.length < tokens.length →
      Place.operand.Faithful options.allowUnclosedParens owner
        { later with tokens := token :: later.tokens } (value options owner depth token later)) :
    Place.operand.Faithful options.allowUnclosedParens owner ⟨tokens, fault⟩
      (operand options owner depth ⟨tokens, fault⟩) := by
  intro clean parsed h
  rw [operand_eq] at h
  obtain ⟨ahead, looked, h⟩ := ok_of_bind h
  obtain ⟨-, rfl⟩ := lookahead_ok looked
  cases tokens with
  | nil => cases h
  | cons token tokens =>
    cases token with
    | symbol text =>
      simp only [nextToken_cons, List.tail_cons] at h
      by_cases opening : text = "("
      · rw [if_pos opening] at h
        rw [opening] at clean ⊢
        exact group_faithful exprs few clean parsed h
      · rw [if_neg opening] at h
        cases found : PrefixOp.ofSymbol? text with
        | none =>
          rw [found] at h
          cases h
        | some op =>
          rw [found] at h
          exact prefixed_faithful exprs few found clean parsed h
    | number | name => exact values _ ⟨tokens, fault⟩ (Nat.lt_succ_self _) clean parsed h
    | string | endOfInput => cases h

theorem value_faithful {token : Token} (few : tokens.length ≤ bound) :
    Place.operand.Faithful options.allowUnclosedParens owner ⟨token :: tokens, fault⟩
      (value options owner depth token ⟨tokens, fault⟩) := by
  intro clean parsed h
  rw [value_eq] at h
  cases token with
  | number digits =>
    simp only [number] at h
    split at h
    · rename_i value word
      cases h
      refine ⟨.number digits, tokens, .number (word ▸ rfl), ?_, fun other => absurd rfl other⟩
      simp only [Phrase.parsed, Phrase.formula, word, leaf, Formula.height, Option.getD_some]
    · cases h
  | name name =>
    dsimp only at h
    split at h
    · rename_i kind
      obtain ⟨object, qualifier, rest, rfl, rfl⟩ := property_ok h
      exact ⟨.reference name _ _, rest, .reference kind, rfl, fun other => absurd rfl other⟩
    · rename_i noKind
      split at h
      · rename_i fn called
        exact call_faithful exprs few called clean parsed h
      · rename_i noFunction
        have free : isReserved name = false := by
          rw [isReserved, noFunction, Bool.eq_false_iff.mpr noKind]
          rfl
        obtain ⟨noCall, rfl⟩ := bareName_ok h
        exact ⟨.bare name, tokens, .bare free noCall, rfl, fun other => absurd rfl other⟩
  | symbol | string | endOfInput => cases h

end

theorem readers_faithful (options : Options) (owner : Owner) :
    (∀ depth least (stream : TokenStream),
      (Place.formula least).Faithful options.allowUnclosedParens owner stream
        (expr options owner depth least stream)) ∧
    (∀ depth least (chain : Parsed TokenStream), ∀ part stream, chain = part.parsed owner stream →
      (Place.infixTail least part).Faithful options.allowUnclosedParens owner stream
        (infixTail options owner depth least chain)) ∧
    (∀ depth least (condition : Parsed TokenStream), ∀ part stream,
      condition = part.parsed owner stream →
      (Place.conditionalTail least part).Faithful options.allowUnclosedParens owner stream
        (conditionalTail options owner depth least condition)) ∧
    (∀ depth (stream : TokenStream), Place.operand.Faithful options.allowUnclosedParens owner stream
      (operand options owner depth stream)) ∧
    ∀ depth token (stream : TokenStream),
      Place.operand.Faithful options.allowUnclosedParens owner
        { stream with tokens := token :: stream.tokens } (value options owner depth token stream) := by
  refine readers_induction ?_ ?_ ?_ ?_ ?_
  · rintro depth least ⟨tokens, fault⟩ operands tails clean parsed h
    rw [expr_eq] at h
    split at h
    · cases h
    obtain ⟨first, read, h⟩ := ok_of_bind h
    have fewer := left_of_operand read
    obtain ⟨phrase, afterFirst, reads, rfl, -⟩ := operands _ clean first read
    have clean := fun bad => clean (reads.suffix.subset bad)
    obtain ⟨chain, grown, h⟩ := ok_of_bind h
    have fewer' := left_of_infixTail grown
    obtain ⟨chained, afterChain, readsChain, rfl, -⟩ :=
      (tails _ _ _ fewer).1 phrase ⟨afterFirst, fault⟩ rfl clean chain grown
    have clean := fun bad => clean (readsChain.suffix.subset bad)
    obtain ⟨whole, rest, readsWhole, rfl, sound⟩ :=
      (tails _ _ _ (Nat.lt_of_le_of_lt fewer' fewer)).2 chained ⟨afterChain, fault⟩ rfl clean parsed h
    exact ⟨whole, rest, .formula reads readsChain readsWhole, rfl, fun _ => sound nofun⟩
  · rintro depth least chain exprs tails part ⟨tokens, fault⟩ rfl
    exact infixTail_faithful exprs (Nat.le_refl _) tails
  · rintro depth least condition exprs tails part ⟨tokens, fault⟩ rfl
    exact conditionalTail_faithful exprs (Nat.le_refl _) tails
  · rintro depth ⟨tokens, fault⟩ parts
    exact operand_faithful (fun depth least later fewer => (parts depth least later fewer).1)
      (Nat.le_refl _) fun token later fewer => (parts depth 0 later fewer).2 token
  · rintro depth token ⟨tokens, fault⟩ exprs
    exact value_faithful exprs (Nat.le_refl _)

end TableFormula
