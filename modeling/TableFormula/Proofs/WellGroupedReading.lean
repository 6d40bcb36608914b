import TableFormula.Proofs.Reading

/-!
What is read is well grouped, and every well grouped phrase is read from its tokens. The invariant of
both is the right edge of a phrase: no place on it takes the token that comes next, so that this token
is left to a place further out.
-/

namespace TableFormula

/-! ### What a level takes -/

theorem takesInfix_eq_some_iff {level : Nat} {token : Token} {op : InfixOp} :
    takesInfix level token = some op ↔ token = .symbol op.symbol ∧ level ≤ op.precedence := by
  unfold takesInfix Token.infixOp?
  rw [Option.filter_eq_some_iff, decide_eq_true_eq]
  split
  · rw [InfixOp.ofSymbol?_eq_some_iff, Token.symbol.injEq]
  · rename_i other
    constructor
    · rintro ⟨none, -⟩
      cases none
    · rintro ⟨same, -⟩
      exact absurd same (other _)

theorem takesConditional_iff {level : Nat} {token : Token} :
    takesConditional level token = true ↔ token = .symbol Conditional.symbol ∧ level = 0 := by
  unfold takesConditional
  rw [Bool.and_eq_true, Token.isSymbol_iff, decide_eq_true_eq]
  exact and_congr_right fun _ => Nat.le_zero

/-- Whether a place of the level takes neither an operator nor a conditional at the token. -/
def Declines (level : Nat) (token : Token) : Prop :=
  takesInfix level token = none ∧ takesConditional level token = false

theorem declines_iff {level : Nat} {token : Token} :
    Declines level token ↔ (∀ op : InfixOp, token = .symbol op.symbol → op.precedence < level) ∧
      (token = .symbol Conditional.symbol → 0 < level) := by
  unfold Declines
  rw [Option.eq_none_iff_forall_ne_some, ← Bool.not_eq_true, takesConditional_iff]
  constructor
  · rintro ⟨noInfix, noConditional⟩
    refine ⟨fun op same => ?_, fun same => ?_⟩
    · exact Nat.lt_of_not_le fun low => noInfix op (takesInfix_eq_some_iff.mpr ⟨same, low⟩)
    · exact Nat.pos_of_ne_zero fun zero => noConditional ⟨same, zero⟩
  · rintro ⟨low, positive⟩
    refine ⟨fun op taken => ?_, fun taken => ?_⟩
    · obtain ⟨same, high⟩ := takesInfix_eq_some_iff.mp taken
      exact absurd (low op same) (Nat.not_lt.mpr high)
    · exact absurd (positive taken.1) (by omega)

theorem declines_symbol {level : Nat} {text : String} (noInfix : InfixOp.ofSymbol? text = none)
    (noConditional : text ≠ Conditional.symbol) : Declines level (.symbol text) := by
  refine declines_iff.mpr ⟨fun op same => ?_, fun same => ?_⟩
  · cases same
    rw [InfixOp.ofSymbol?_symbol] at noInfix
    cases noInfix
  · cases same
    exact absurd rfl noConditional

theorem declines_endOfInput (level : Nat) : Declines level .endOfInput := ⟨rfl, rfl⟩

theorem InfixOp.operandLevel_le (op : InfixOp) : op.operandLevel ≤ op.precedence + 1 := by
  cases op <;> decide

theorem InfixOp.operandLevel_pos (op : InfixOp) : 0 < op.operandLevel := by
  cases op <;> decide

theorem PrefixOp.precedence_pos (op : PrefixOp) : 0 < op.precedence := by
  cases op <;> decide

namespace Phrase

theorem not_isConditional_of_fits {level : Nat} {phrase : Phrase} (h : phrase.Fits level) :
    ¬phrase.IsConditional := by
  cases phrase <;> simp_all [Fits, IsConditional]

theorem fits_zero_iff {phrase : Phrase} : phrase.Fits 0 ↔ ¬phrase.IsConditional := by
  cases phrase <;> simp [Fits, IsConditional]

theorem fits_of_precedes {level precedence : Nat} {phrase : Phrase}
    (h : phrase.Precedes precedence) (low : level ≤ precedence) : phrase.Fits level := by
  obtain ⟨noConditional, edge⟩ := h
  cases phrase with
  | between op left right =>
    have above := edge op.operandLevel (by simp [edgeLevels])
    have := op.operandLevel_le
    show level ≤ op.precedence
    omega
  | conditional => exact absurd trivial noConditional
  | number | bare | reference | call | group | prefixed => trivial

/-- Only a conditional leaves a place on the right edge that takes another. -/
theorem edgeLevels_pos {phrase : Phrase} (grouped : phrase.WellGrouped)
    (noConditional : ¬phrase.IsConditional) : ∀ level ∈ phrase.edgeLevels, 0 < level := by
  induction phrase with
  | prefixed op operand ih =>
    obtain ⟨fits, grouped⟩ := grouped
    intro level member
    rcases List.mem_cons.mp member with rfl | member
    · exact op.precedence_pos
    · exact ih grouped (not_isConditional_of_fits fits) level member
  | between op left right _ ih =>
    obtain ⟨-, fits, -, grouped⟩ := grouped
    intro level member
    rcases List.mem_cons.mp member with rfl | member
    · exact op.operandLevel_pos
    · exact ih grouped (not_isConditional_of_fits fits) level member
  | conditional => exact absurd trivial noConditional
  | number | bare | reference | call | group =>
    intro level member
    cases member

/-- How many groups end where the phrase does. -/
def openGroups : Phrase → Nat
  | group inner => inner.openGroups + 1
  | prefixed _ operand => operand.openGroups
  | between _ _ right => right.openGroups
  | conditional _ _ second => second.openGroups
  | _ => 0

/-! ### What is read is well grouped -/

/-- A phrase that stands before a token as the readers leave it. -/
structure Settled (phrase : Phrase) (next : Token) : Prop where
  valid : phrase.Valid
  wellGrouped : phrase.WellGrouped
  edge : ∀ level ∈ phrase.edgeLevels, Declines level next

end Phrase

namespace Place

def Ready : Place → Token → Prop
  | .formula _, _ | .operand, _ => True
  | .infixTail least chain, next => chain.Settled next ∧ chain.Fits least
  | .conditionalTail least condition, next =>
    condition.Settled next ∧ (0 < least → condition.Fits least) ∧ takesInfix least next = none ∧
      (condition.IsConditional → takesConditional least next = false)

/-- What reading in a place achieves. -/
def Done : Place → Phrase → Token → Prop
  | .formula least, phrase, next | .conditionalTail least _, phrase, next =>
    phrase.Settled next ∧ (0 < least → phrase.Fits least) ∧ Declines least next
  | .infixTail least _, phrase, next =>
    phrase.Settled next ∧ phrase.Fits least ∧ takesInfix least next = none
  | .operand, phrase, next => phrase.Settled next ∧ ∀ level, phrase.Fits level

end Place

namespace Reads

theorem done {lenient : Bool} {place : Place} {tokens rest : List Token} {phrase : Phrase}
    (h : Reads lenient place tokens phrase rest) (ready : place.Ready (nextToken tokens)) :
    place.Done phrase (nextToken rest) := by
  -- What was read in front of a tail is settled before the token that the tail sees. A taken operator
  -- is declined by every place on the right edge, which is what its left operand needs.
  induction h with
  | formula _ _ _ ihFirst ihChain ihWhole =>
    obtain ⟨settled, fits⟩ := ihFirst trivial
    obtain ⟨settled, fits, stops⟩ := ihChain ⟨settled, fits _⟩
    exact ihWhole ⟨settled, fun _ => fits, stops, fun conditional =>
      absurd conditional (Phrase.not_isConditional_of_fits fits)⟩
  | infixEnd stops => exact ⟨ready.1, ready.2, stops⟩
  | @infixMore least chain right whole token op tokens afterRight rest taken _ _ ihRight ihWhole =>
    obtain ⟨settled, fits⟩ := ready
    obtain ⟨settledRight, fitsRight, declines⟩ := ihRight trivial
    obtain ⟨same, low⟩ := takesInfix_eq_some_iff.mp taken
    have precedes : chain.Precedes op.precedence :=
      ⟨Phrase.not_isConditional_of_fits fits, fun level member =>
        (declines_iff.mp (settled.edge level member)).1 op same⟩
    refine ihWhole ⟨⟨⟨settled.valid, settledRight.valid⟩,
      ⟨precedes, fitsRight op.operandLevel_pos, settled.wellGrouped, settledRight.wellGrouped⟩,
      List.forall_mem_cons.mpr ⟨declines, settledRight.edge⟩⟩, low⟩
  | conditionalEnd stops =>
    obtain ⟨settled, fits, noInfix, -⟩ := ready
    exact ⟨settled, fits, noInfix, stops⟩
  | @conditionalMore _ condition _ _ _ _ _ _ _ _ taken _ _ _ ihFirst ihSecond ihWhole =>
    obtain ⟨settled, -, -, once⟩ := ready
    obtain ⟨-, rfl⟩ := takesConditional_iff.mp taken
    obtain ⟨settledFirst, -, -⟩ := ihFirst trivial
    obtain ⟨settledSecond, -, declines⟩ := ihSecond trivial
    have noConditional : ¬condition.IsConditional := fun conditional =>
      nomatch (once conditional).symm.trans taken
    refine ihWhole ⟨⟨⟨settled.valid, settledFirst.valid, settledSecond.valid⟩,
      ⟨noConditional, settled.wellGrouped, settledFirst.wellGrouped, settledSecond.wellGrouped⟩,
      List.forall_mem_cons.mpr ⟨declines, settledSecond.edge⟩⟩,
      fun positive => absurd positive (Nat.lt_irrefl 0), declines.1, fun _ => declines.2⟩
  | number word => exact ⟨⟨word, trivial, nofun⟩, fun _ => trivial⟩
  | bare free _ => exact ⟨⟨free, trivial, nofun⟩, fun _ => trivial⟩
  | reference kind => exact ⟨⟨kind, trivial, nofun⟩, fun _ => trivial⟩
  | call _ _ _ ihFirst ihSecond =>
    have first := (ihFirst trivial).1
    have second := (ihSecond trivial).1
    exact ⟨⟨⟨first.valid, second.valid⟩, ⟨first.wellGrouped, second.wellGrouped⟩, nofun⟩,
      fun _ => trivial⟩
  | @prefixed _ op _ _ _ _ _ ih =>
    obtain ⟨settled, fits, declines⟩ := ih trivial
    exact ⟨⟨settled.valid, ⟨fits op.precedence_pos, settled.wellGrouped⟩,
      List.forall_mem_cons.mpr ⟨declines, settled.edge⟩⟩, fun _ => trivial⟩
  | group _ ih | unclosed _ _ ih =>
    have inner := (ih trivial).1
    exact ⟨⟨inner.valid, inner.wellGrouped, nofun⟩, fun _ => trivial⟩

theorem settled {lenient : Bool} {least : Nat} {tokens rest : List Token} {phrase : Phrase}
    (h : Reads lenient (.formula least) tokens phrase rest) : phrase.Settled (nextToken rest) :=
  (h.done trivial).1

/-! ### What is read is written by the tokens -/

theorem suffix {lenient : Bool} {place : Place} {tokens rest : List Token} {phrase : Phrase}
    (h : Reads lenient place tokens phrase rest) : rest <:+ tokens := by
  induction h with
  | formula _ _ _ ihFirst ihChain ihWhole => exact (ihWhole.trans ihChain).trans ihFirst
  | infixEnd | conditionalEnd => exact List.suffix_rfl
  | infixMore _ _ _ ihRight ihWhole => exact (ihWhole.trans ihRight).trans (List.suffix_cons ..)
  | conditionalMore _ _ _ _ ihFirst ihSecond ihWhole =>
    have before := (List.suffix_cons ..).trans ihFirst
    exact ((ihWhole.trans ihSecond).trans before).trans (List.suffix_cons ..)
  | number | bare => exact List.suffix_cons ..
  | @reference kind name qualifier tokens _ =>
    exact List.suffix_append [Token.name kind, .symbol "(", .string name, .symbol ".",
      .name qualifier, .symbol ")"] tokens
  | call _ _ _ ihFirst ihSecond =>
    have after := (List.suffix_cons ..).trans ihSecond
    have before := (List.suffix_cons ..).trans ihFirst
    exact (after.trans before).trans ((List.suffix_cons ..).trans (List.suffix_cons ..))
  | prefixed _ _ ih => exact ih.trans (List.suffix_cons ..)
  | group _ ih => exact ((List.suffix_cons ..).trans ih).trans (List.suffix_cons ..)
  | unclosed => exact List.nil_suffix

/-- Behind what is read no token stands for the end. -/
theorem ne_endOfInput {lenient : Bool} {place : Place} {tokens later : List Token} {phrase : Phrase}
    {next : Token} (h : Reads lenient place tokens phrase (next :: later))
    (clean : .endOfInput ∉ tokens) : next ≠ .endOfInput :=
  fun ended => clean (h.suffix.subset (ended ▸ List.mem_cons_self))

theorem infixTail_nil {lenient : Bool} {least : Nat} {chain whole : Phrase} {rest : List Token}
    (h : Reads lenient (.infixTail least chain) [] whole rest) : whole = chain ∧ rest = [] := by
  cases h
  exact ⟨rfl, rfl⟩

theorem conditionalTail_nil {lenient : Bool} {least : Nat} {condition whole : Phrase}
    {rest : List Token} (h : Reads lenient (.conditionalTail least condition) [] whole rest) :
    whole = condition ∧ rest = [] := by
  cases h
  exact ⟨rfl, rfl⟩

end Reads

/-- The closing parentheses that are left out at the end of the tokens. -/
def closings (missing : Nat) : List Token := List.replicate missing (.symbol ")")

/-- Whether tokens write a phrase and what stands behind it, up to closing parentheses of groups that
are left out at the end. -/
def Writes (lenient : Bool) (phrase : Phrase) (tokens rest : List Token) : Prop :=
  ∃ missing ≤ phrase.openGroups, tokens ++ closings missing = phrase.tokens ++ rest ∧
    (missing ≠ 0 → lenient = true ∧ rest = [])

namespace Writes

variable {lenient : Bool} {phrase first : Phrase} {tokens rest afterFirst : List Token}

theorem of_eq (same : tokens = phrase.tokens ++ rest) : Writes lenient phrase tokens rest :=
  ⟨0, Nat.zero_le _, by rw [← same]; exact List.append_nil tokens, fun missing => absurd rfl missing⟩

theorem eq_of_cons {token : Token} (h : Writes lenient phrase tokens (token :: rest)) :
    tokens = phrase.tokens ++ token :: rest := by
  obtain ⟨missing, -, same, ended⟩ := h
  cases missing with
  | zero => rwa [closings, List.replicate_zero, List.append_nil] at same
  | succ => exact nomatch (ended (Nat.succ_ne_zero _)).2

theorem eq_of_strict (h : Writes false phrase tokens rest) : tokens = phrase.tokens ++ rest := by
  obtain ⟨missing, -, same, ended⟩ := h
  cases missing with
  | zero => rwa [closings, List.replicate_zero, List.append_nil] at same
  | succ => exact nomatch (ended (Nat.succ_ne_zero _)).1

theorem trans (h : Writes lenient first tokens afterFirst)
    (later : Writes lenient phrase (first.tokens ++ afterFirst) rest)
    (ended : afterFirst = [] → phrase = first ∧ rest = []) : Writes lenient phrase tokens rest := by
  by_cases nothing : afterFirst = []
  · obtain ⟨rfl, rfl⟩ := ended nothing
    rwa [nothing] at h
  · obtain ⟨token, more, rfl⟩ := List.exists_cons_of_ne_nil nothing
    rwa [h.eq_of_cons]

theorem extend (h : Writes lenient first tokens rest) (before : List Token)
    (ends : phrase.tokens = before ++ first.tokens) (groups : phrase.openGroups = first.openGroups) :
    Writes lenient phrase (before ++ tokens) rest := by
  obtain ⟨missing, few, same, ended⟩ := h
  refine ⟨missing, groups ▸ few, ?_, ended⟩
  rw [List.append_assoc, same, ends, List.append_assoc]

theorem unclosed (h : Writes lenient phrase tokens []) (tolerated : lenient = true) :
    Writes lenient (.group phrase) (.symbol "(" :: tokens) [] := by
  obtain ⟨missing, few, same, -⟩ := h
  refine ⟨missing + 1, Nat.succ_le_succ few, ?_, fun _ => ⟨tolerated, rfl⟩⟩
  rw [List.append_nil] at same
  simp only [closings] at same
  simp [closings, List.replicate_succ', Phrase.tokens, ← same]

end Writes

def Place.before : Place → List Token
  | .infixTail _ phrase | .conditionalTail _ phrase => phrase.tokens
  | .formula _ | .operand => []

namespace Reads

theorem writes {lenient : Bool} {place : Place} {tokens rest : List Token} {phrase : Phrase}
    (h : Reads lenient place tokens phrase rest) :
    Writes lenient phrase (place.before ++ tokens) rest := by
  induction h with
  | formula _ chainRead wholeRead ihFirst ihChain ihWhole =>
    refine (ihFirst.trans ihChain fun nothing => ?_).trans ihWhole fun nothing => ?_
    · subst nothing
      exact chainRead.infixTail_nil
    · subst nothing
      exact wholeRead.conditionalTail_nil
  | infixEnd | conditionalEnd => exact .of_eq rfl
  | @infixMore _ chain right _ token op _ afterRight _ taken _ wholeRead ihRight ihWhole =>
    obtain ⟨rfl, -⟩ := takesInfix_eq_some_iff.mp taken
    have grown : Writes _ (.between op chain right) _ afterRight :=
      ihRight.extend (chain.tokens ++ [.symbol op.symbol]) (by simp [Phrase.tokens]) rfl
    rw [List.append_assoc] at grown
    refine grown.trans ihWhole fun nothing => ?_
    subst nothing
    exact wholeRead.infixTail_nil
  | @conditionalMore _ condition first second _ token _ afterFirst afterSecond _ taken _ _
      wholeRead ihFirst ihSecond ihWhole =>
    obtain ⟨rfl, -⟩ := takesConditional_iff.mp taken
    have grown : Writes _ (.conditional condition first second) _ afterSecond :=
      ihSecond.extend (condition.tokens ++ .symbol Conditional.symbol ::
        (first.tokens ++ [.symbol Conditional.marker])) (by simp [Phrase.tokens]) rfl
    have branch := ihFirst.eq_of_cons
    simp only [Place.before, List.nil_append, List.append_assoc, List.cons_append] at branch grown
    rw [← branch] at grown
    refine grown.trans ihWhole fun nothing => ?_
    subst nothing
    exact wholeRead.conditionalTail_nil
  | number | bare | reference => exact .of_eq rfl
  | call called _ _ ihFirst ihSecond =>
    refine .of_eq ?_
    have first := ihFirst.eq_of_cons
    have second := ihSecond.eq_of_cons
    simp only [Place.before, List.nil_append] at first second
    simp [Place.before, Phrase.tokens, Builtin.ofSymbol?_eq_some_iff.mp called, first, second]
  | prefixed found _ ih =>
    rw [PrefixOp.ofSymbol?_eq_some_iff.mp found]
    exact ih.extend [.symbol _] rfl rfl
  | group _ ih =>
    refine .of_eq ?_
    have inner := ih.eq_of_cons
    simp only [Place.before, List.nil_append] at inner
    simp [Place.before, Phrase.tokens, inner]
  | unclosed tolerated _ ih => exact ih.unclosed tolerated

end Reads

/-! ### Every well grouped phrase is read -/

/-- Whether a phrase can stand before these tokens: no place on its right edge takes the next one,
and it is not one that would make a bare name a call. -/
structure Phrase.Ends (phrase : Phrase) (next : Token) : Prop where
  edge : ∀ level ∈ phrase.edgeLevels, Declines level next
  noCall : next ≠ .symbol "("

/-- Whether reading an operand of the tokens, and the operators behind it that a place takes, comes to
the phrase before `rest`. -/
def ReadsUpTo (lenient : Bool) (least : Nat) (phrase : Phrase) (tokens rest : List Token) : Prop :=
  ∃ first afterFirst, Reads lenient .operand tokens first afterFirst ∧
    ∀ whole later, Reads lenient (.infixTail least phrase) rest whole later →
      Reads lenient (.infixTail least first) afterFirst whole later

section

variable {lenient : Bool} {least : Nat} {phrase : Phrase} {tokens rest : List Token}

theorem ReadsUpTo.of_operand (h : Reads lenient .operand tokens phrase rest) :
    ReadsUpTo lenient least phrase tokens rest :=
  ⟨phrase, rest, h, fun _ _ tail => tail⟩

theorem ReadsUpTo.formula {whole : Phrase} {later : List Token}
    (h : ReadsUpTo lenient least phrase tokens rest) (stops : takesInfix least (nextToken rest) = none)
    (tail : Reads lenient (.conditionalTail least phrase) rest whole later) :
    Reads lenient (.formula least) tokens whole later := by
  obtain ⟨first, afterFirst, read, goesOn⟩ := h
  exact .formula read (goesOn phrase rest (.infixEnd stops)) tail

theorem ReadsUpTo.between {op : InfixOp} {right : Phrase} {later : List Token}
    (h : ReadsUpTo lenient least phrase tokens (.symbol op.symbol :: rest))
    (low : least ≤ op.precedence)
    (read : Reads lenient (.formula op.operandLevel) rest right later) :
    ReadsUpTo lenient least (.between op phrase right) tokens later := by
  obtain ⟨first, afterFirst, operand, goesOn⟩ := h
  exact ⟨first, afterFirst, operand, fun whole last tail =>
    goesOn whole last (.infixMore (takesInfix_eq_some_iff.mpr ⟨rfl, low⟩) read tail)⟩

end

theorem InfixOp.symbol_injective {a b : InfixOp} (same : a.symbol = b.symbol) : a = b :=
  BinaryOp.between.inj (BinaryOp.symbol_injective (a := .between a) (b := .between b) same)

theorem InfixOp.symbol_ne_conditional (op : InfixOp) : op.symbol ≠ Conditional.symbol := by
  cases op <;> decide

theorem InfixOp.symbol_ne_parenthesis (op : InfixOp) : op.symbol ≠ "(" := by
  cases op <;> decide

theorem InfixOp.symbol_ne_dot (op : InfixOp) : op.symbol ≠ "." := by
  cases op <;> decide

theorem PrefixOp.symbol_ne_dot (op : PrefixOp) : op.symbol ≠ "." := by
  cases op <;> decide

namespace Phrase

theorem ends_of_precedes {op : InfixOp} {phrase : Phrase} (h : phrase.Precedes op.precedence) :
    phrase.Ends (.symbol op.symbol) := by
  refine ⟨fun level member => declines_iff.mpr ⟨fun other same => ?_, fun same => ?_⟩, fun same => ?_⟩
  · rw [← InfixOp.symbol_injective (Token.symbol.inj same)]
    exact h.2 level member
  · exact absurd (Token.symbol.inj same) op.symbol_ne_conditional
  · exact op.symbol_ne_parenthesis (Token.symbol.inj same)

theorem ends_of_symbol (phrase : Phrase) {text : String} (noInfix : InfixOp.ofSymbol? text = none)
    (noConditional : text ≠ Conditional.symbol) (noCall : text ≠ "(") :
    phrase.Ends (.symbol text) :=
  ⟨fun _ _ => declines_symbol noInfix noConditional, fun same => noCall (Token.symbol.inj same)⟩

theorem ends_of_condition {phrase : Phrase} (grouped : phrase.WellGrouped)
    (noConditional : ¬phrase.IsConditional) : phrase.Ends (.symbol Conditional.symbol) := by
  refine ⟨fun level member => declines_iff.mpr ⟨fun op same => ?_, fun _ => ?_⟩, by decide⟩
  · exact absurd (Token.symbol.inj same).symm op.symbol_ne_conditional
  · exact edgeLevels_pos grouped noConditional level member

/-- Whether a phrase is read as a chain wherever it can stand. -/
def ReadAsChain (lenient : Bool) (phrase : Phrase) : Prop :=
  ∀ least rest, phrase.Fits least → phrase.Ends (nextToken rest) →
    ReadsUpTo lenient least phrase (phrase.tokens ++ rest) rest

def ReadAsFormula (lenient : Bool) (phrase : Phrase) : Prop :=
  ∀ least rest, (0 < least → phrase.Fits least) → phrase.Ends (nextToken rest) →
    Declines least (nextToken rest) →
    Reads lenient (.formula least) (phrase.tokens ++ rest) phrase rest

variable {lenient : Bool} {phrase : Phrase}

theorem ReadAsChain.formula (chain : phrase.ReadAsChain lenient)
    (noConditional : ¬phrase.IsConditional) : phrase.ReadAsFormula lenient := by
  intro least rest fits ends declines
  have fits : phrase.Fits least := by
    rcases Nat.eq_zero_or_pos least with rfl | positive
    · exact fits_zero_iff.mpr noConditional
    · exact fits positive
  exact (chain least rest fits ends).formula declines.1 (.conditionalEnd declines.2)

theorem ReadAsFormula.upTo (h : phrase.ReadAsFormula lenient) (text : String) (rest : List Token)
    (noInfix : InfixOp.ofSymbol? text = none) (noConditional : text ≠ Conditional.symbol)
    (noCall : text ≠ "(") :
    Reads lenient (.formula 0) (phrase.tokens ++ .symbol text :: rest) phrase (.symbol text :: rest) :=
  h 0 _ (fun positive => absurd positive (Nat.lt_irrefl 0))
    (phrase.ends_of_symbol noInfix noConditional noCall) (declines_symbol noInfix noConditional)

theorem readAs_of_operand (noConditional : ¬phrase.IsConditional)
    (read : ∀ rest, phrase.Ends (nextToken rest) →
      Reads lenient .operand (phrase.tokens ++ rest) phrase rest) :
    phrase.ReadAsChain lenient ∧ phrase.ReadAsFormula lenient := by
  have chain : phrase.ReadAsChain lenient := fun _ rest _ ends => .of_operand (read rest ends)
  exact ⟨chain, chain.formula noConditional⟩

theorem readAs (lenient : Bool) (phrase : Phrase) (valid : phrase.Valid)
    (grouped : phrase.WellGrouped) :
    phrase.ReadAsChain lenient ∧ phrase.ReadAsFormula lenient := by
  -- A left operand is read as a chain, so that the operator behind it is left to the chain around it;
  -- every other part is read as a formula.
  induction phrase with
  | number digits => exact readAs_of_operand id fun rest _ => .number valid
  | bare name => exact readAs_of_operand id fun rest ends => .bare valid ends.noCall
  | reference kind name qualifier => exact readAs_of_operand id fun rest _ => .reference valid
  | call fn first second ihFirst ihSecond =>
    refine readAs_of_operand id fun rest _ => ?_
    have left := (ihFirst valid.1 grouped.1).2.upTo ","
      (second.tokens ++ .symbol ")" :: rest) (by decide) (by decide) (by decide)
    have right := (ihSecond valid.2 grouped.2).2.upTo ")" rest (by decide) (by decide)
      (by decide)
    simpa [tokens] using Reads.call fn.ofSymbol?_symbol left right
  | group inner ih =>
    refine readAs_of_operand id fun rest _ => ?_
    have closed := (ih valid grouped).2.upTo ")" rest (by decide) (by decide) (by decide)
    simpa [tokens] using Reads.group closed
  | prefixed op operand ih =>
    refine readAs_of_operand id fun rest ends => ?_
    obtain ⟨fits, grouped⟩ := grouped
    obtain ⟨declines, edge⟩ := List.forall_mem_cons.mp ends.edge
    exact .prefixed op.ofSymbol?_symbol
      ((ih valid grouped).2 _ rest (fun _ => fits) ⟨edge, ends.noCall⟩ declines)
  | between op left right ihLeft ihRight =>
    obtain ⟨precedes, fits, groupedLeft, groupedRight⟩ := grouped
    have chain : ReadAsChain lenient (.between op left right) := by
      intro least rest low ends
      obtain ⟨declines, edge⟩ := List.forall_mem_cons.mp ends.edge
      have readLeft := (ihLeft valid.1 groupedLeft).1 least
        (.symbol op.symbol :: (right.tokens ++ rest)) (fits_of_precedes precedes low) (ends_of_precedes precedes)
      have readRight := (ihRight valid.2 groupedRight).2 _ rest (fun _ => fits)
        ⟨edge, ends.noCall⟩ declines
      simpa [tokens] using readLeft.between low readRight
    exact ⟨chain, chain.formula id⟩
  | conditional condition first second ihCondition ihFirst ihSecond =>
    obtain ⟨noConditional, groupedCondition, groupedFirst, groupedSecond⟩ := grouped
    refine ⟨fun _ _ fits => fits.elim, fun least rest fits ends declines => ?_⟩
    obtain ⟨declinesBranch, edge⟩ := List.forall_mem_cons.mp ends.edge
    have zero : least = 0 := Nat.eq_zero_of_not_pos fun positive => fits positive
    subst zero
    have readFirst := (ihFirst valid.2.1 groupedFirst).2.upTo Conditional.marker
      (second.tokens ++ rest) (by decide) (by decide) (by decide)
    have readSecond := (ihSecond valid.2.2 groupedSecond).2 _ rest
      (fun positive => absurd positive (Nat.lt_irrefl 0)) ⟨edge, ends.noCall⟩ declinesBranch
    have readCondition := (ihCondition valid.1 groupedCondition).1 0
      (.symbol Conditional.symbol ::
        (first.tokens ++ .symbol Conditional.marker :: (second.tokens ++ rest)))
      (fits_zero_iff.mpr noConditional) (ends_of_condition groupedCondition noConditional)
    simpa [tokens] using readCondition.formula rfl
      (.conditionalMore rfl readFirst readSecond (.conditionalEnd declinesBranch.2))

end Phrase

theorem reads_of_wellGrouped {lenient : Bool} {phrase : Phrase} {rest : List Token}
    (valid : phrase.Valid) (grouped : phrase.WellGrouped) (ends : phrase.Ends (nextToken rest))
    (declines : Declines 0 (nextToken rest)) :
    Reads lenient (.formula 0) (phrase.tokens ++ rest) phrase rest :=
  (phrase.readAs lenient valid grouped).2 0 rest (fun positive => absurd positive (Nat.lt_irrefl 0)) ends
    declines

theorem reads_tokens {lenient : Bool} {phrase : Phrase} (valid : phrase.Valid)
    (grouped : phrase.WellGrouped) : Reads lenient (.formula 0) phrase.tokens phrase [] := by
  have ends : phrase.Ends (nextToken []) := ⟨fun level _ => declines_endOfInput level, nofun⟩
  rw [← List.append_nil phrase.tokens]
  exact reads_of_wellGrouped valid grouped ends (declines_endOfInput 0)

/-- A list of tokens is written by one well grouped phrase at most. -/
theorem Phrase.tokens_inj {a b : Phrase} (validA : a.Valid) (groupedA : a.WellGrouped)
    (validB : b.Valid) (groupedB : b.WellGrouped) (same : a.tokens = b.tokens) : a = b := by
  have readA : Reads false _ b.tokens a [] := same ▸ reads_tokens validA groupedA
  exact (readA.unique (reads_tokens validB groupedB)).1

end TableFormula
