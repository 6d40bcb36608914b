import TableFormula.Grammar.Flat
import TableFormula.Proofs.NumberWords
import TableFormula.Proofs.WholeFormula

/-!
The tokens of well grouped phrases are the lists of the flat grammar. A chain is grouped from left to
right: each operator goes to the innermost place on the right edge that takes it.
-/

namespace TableFormula

/-! ### Phrases are flat -/

theorem FlatChain.append {first second : List Token} (op : InfixOp) (left : FlatChain first) :
    FlatChain second → FlatChain (first ++ .symbol op.symbol :: second)
  | .single operand => .more op left operand
  | .more later chain operand => by
    have longer := FlatChain.more later (left.append op chain) operand
    rwa [List.append_assoc] at longer

theorem FlatChain.prefixed {tokens : List Token} (op : PrefixOp) :
    FlatChain tokens → FlatChain (.symbol op.symbol :: tokens)
  | .single operand => .single (.prefixed op operand)
  | .more later chain operand => .more later (chain.prefixed op) operand

namespace Phrase

theorem flat_of_wellGrouped {phrase : Phrase} (valid : phrase.Valid)
    (grouped : phrase.WellGrouped) :
    FlatExpr phrase.tokens ∧ (¬phrase.IsConditional → FlatChain phrase.tokens) := by
  have ofChain : ∀ {tokens : List Token} {noConditional : Prop}, FlatChain tokens →
      FlatExpr tokens ∧ (noConditional → FlatChain tokens) :=
    fun chain => ⟨.chain chain, fun _ => chain⟩
  induction phrase with
  | number digits => exact ofChain (.single (.number digits))
  | bare name => exact ofChain (.single (.bare valid))
  | reference kind name qualifier => exact ofChain (.single (.reference name qualifier valid))
  | call fn first second ihFirst ihSecond =>
    have flatFirst := (ihFirst valid.1 grouped.1).1
    have flatSecond := (ihSecond valid.2 grouped.2).1
    exact ofChain (.single (.call fn flatFirst flatSecond))
  | group inner ih => exact ofChain (.single (.group (ih valid grouped).1))
  | prefixed op operand ih =>
    obtain ⟨fits, grouped⟩ := grouped
    have chain := (ih valid grouped).2 (not_isConditional_of_fits fits)
    exact ofChain (chain.prefixed op)
  | between op left right ihLeft ihRight =>
    obtain ⟨precedes, fits, groupedLeft, groupedRight⟩ := grouped
    have chainLeft := (ihLeft valid.1 groupedLeft).2 precedes.1
    have chainRight := (ihRight valid.2 groupedRight).2 (not_isConditional_of_fits fits)
    exact ofChain (chainLeft.append op chainRight)
  | conditional condition first second ihCondition ihFirst ihSecond =>
    obtain ⟨noConditional, groupedCondition, groupedFirst, groupedSecond⟩ := grouped
    have chain := (ihCondition valid.1 groupedCondition).2 noConditional
    have flatFirst := (ihFirst valid.2.1 groupedFirst).1
    have flatSecond := (ihSecond valid.2.2 groupedSecond).1
    exact ⟨.conditional chain flatFirst flatSecond, fun none => absurd trivial none⟩

/-! ### Chains are grouped -/

/-- A phrase with an operator and its right operand behind it, both taken by the innermost place on
the right edge that takes the operator. -/
def extend (op : InfixOp) (right : Phrase) : Phrase → Phrase
  | prefixed outer operand =>
    if (prefixed outer operand).Precedes op.precedence then
      .between op (.prefixed outer operand) right
    else .prefixed outer (extend op right operand)
  | between outer left last =>
    if (between outer left last).Precedes op.precedence then
      .between op (.between outer left last) right
    else .between outer left (extend op right last)
  | phrase => .between op phrase right

variable {op : InfixOp} {phrase right : Phrase}

theorem extend_of_precedes (precedes : phrase.Precedes op.precedence) :
    extend op right phrase = .between op phrase right := by
  cases phrase with
  | prefixed | between => exact if_pos precedes
  | number | bare | reference | call | group | conditional => rfl

/-- Where a phrase cannot stand to the left of an operator but the phrase at its end can, it is the
outermost place on the right edge that takes the operator. -/
theorem le_of_not_precedes {level : Nat} {levels : List Nat} (noConditional : ¬phrase.IsConditional)
    (edge : phrase.edgeLevels = level :: levels) (taken : ¬phrase.Precedes op.precedence)
    (above : ∀ other ∈ levels, op.precedence < other) : level ≤ op.precedence := by
  refine Nat.le_of_not_lt fun high => taken ⟨noConditional, ?_⟩
  rw [edge]
  exact List.forall_mem_cons.mpr ⟨high, above⟩

theorem fits_extend {level : Nat} (fits : phrase.Fits level)
    (low : phrase.Precedes op.precedence → level ≤ op.precedence) :
    (extend op right phrase).Fits level := by
  by_cases precedes : phrase.Precedes op.precedence
  · rw [extend_of_precedes precedes]
    exact low precedes
  · cases phrase with
    | prefixed outer operand =>
      rw [extend, if_neg precedes]
      trivial
    | between outer left last =>
      rw [extend, if_neg precedes]
      exact fits
    | conditional => exact fits.elim
    | number | bare | reference | call | group => exact absurd ⟨nofun, nofun⟩ precedes

theorem tokens_extend (op : InfixOp) (right phrase : Phrase) :
    (extend op right phrase).tokens = phrase.tokens ++ .symbol op.symbol :: right.tokens := by
  induction phrase with
  | prefixed outer operand ih =>
    unfold extend
    split
    · rfl
    · rw [tokens, ih, tokens, List.cons_append]
  | between outer left last _ ih =>
    unfold extend
    split
    · rfl
    · rw [tokens, ih, tokens, List.append_assoc, List.cons_append]
  | number | bare | reference | call | group | conditional => rfl

theorem valid_extend (valid : phrase.Valid) (validRight : right.Valid) :
    (extend op right phrase).Valid := by
  induction phrase with
  | prefixed outer operand ih =>
    unfold extend
    split
    · exact ⟨valid, validRight⟩
    · exact ih valid
  | between outer left last _ ih =>
    unfold extend
    split
    · exact ⟨valid, validRight⟩
    · exact ⟨valid.1, ih valid.2⟩
  | number | bare | reference | call | group | conditional => exact ⟨valid, validRight⟩

theorem wellGrouped_extend (grouped : phrase.WellGrouped) (noConditional : ¬phrase.IsConditional)
    (groupedRight : right.WellGrouped) (unit : ∀ level, right.Fits level) :
    (extend op right phrase).WellGrouped ∧ ¬(extend op right phrase).IsConditional := by
  have here : ∀ {phrase : Phrase}, phrase.Precedes op.precedence → phrase.WellGrouped →
      (extend op right phrase).WellGrouped ∧ ¬(extend op right phrase).IsConditional := by
    intro phrase precedes grouped
    rw [extend_of_precedes precedes]
    exact ⟨⟨precedes, unit _, grouped, groupedRight⟩, nofun⟩
  -- Where the operator goes further in, the place on the edge takes it, so that the longer operand
  -- still fits there.
  induction phrase with
  | prefixed outer operand ih =>
    by_cases precedes : (prefixed outer operand).Precedes op.precedence
    · exact here precedes grouped
    · have fits : (extend op right operand).Fits outer.precedence :=
        fits_extend grouped.1 fun above => le_of_not_precedes noConditional rfl precedes above.2
      have inner := (ih grouped.2 (not_isConditional_of_fits grouped.1)).1
      rw [extend, if_neg precedes]
      exact ⟨⟨fits, inner⟩, nofun⟩
  | between outer left last _ ih =>
    by_cases precedes : (between outer left last).Precedes op.precedence
    · exact here precedes grouped
    · obtain ⟨precedesLeft, fitsLast, groupedLeft, groupedLast⟩ := grouped
      have fits : (extend op right last).Fits outer.operandLevel :=
        fits_extend fitsLast fun above => le_of_not_precedes noConditional rfl precedes above.2
      have inner := (ih groupedLast (not_isConditional_of_fits fitsLast)).1
      rw [extend, if_neg precedes]
      exact ⟨⟨precedesLeft, fits, groupedLeft, inner⟩, nofun⟩
  | conditional => exact absurd trivial noConditional
  | number | bare | reference | call | group => exact here ⟨nofun, nofun⟩ grouped

end Phrase

/-! ### Flat lists are phrases -/

def NumbersFit (tokens : List Token) : Prop :=
  ∀ digits, .number digits ∈ tokens → (wordOfDigits? digits).isSome = true

theorem NumbersFit.append {first second : List Token} :
    NumbersFit (first ++ second) ↔ NumbersFit first ∧ NumbersFit second := by
  simp only [NumbersFit, List.mem_append, or_imp, forall_and]

theorem NumbersFit.tail {token : Token} {tokens : List Token} (h : NumbersFit (token :: tokens)) :
    NumbersFit tokens := fun digits member => h digits (List.mem_cons_of_mem token member)

theorem Phrase.numbersFit {phrase : Phrase} (valid : phrase.Valid) : NumbersFit phrase.tokens := by
  intro digits member
  induction phrase with
  | number other =>
    obtain ⟨⟩ := List.mem_singleton.mp member
    exact valid
  | bare | reference => simp [tokens] at member
  | call fn first second ihFirst ihSecond =>
    simp only [tokens, List.mem_cons, List.mem_append, List.not_mem_nil, reduceCtorEq, false_or,
      or_false] at member
    exact member.elim (ihFirst valid.1) (ihSecond valid.2)
  | group inner ih =>
    simp only [tokens, List.mem_cons, List.mem_append, List.not_mem_nil, reduceCtorEq, false_or,
      or_false] at member
    exact ih valid member
  | prefixed op operand ih =>
    simp only [tokens, List.mem_cons, reduceCtorEq, false_or] at member
    exact ih valid member
  | between op left right ihLeft ihRight =>
    simp only [tokens, List.mem_cons, List.mem_append, reduceCtorEq, false_or] at member
    exact member.elim (ihLeft valid.1) (ihRight valid.2)
  | conditional condition first second ihCondition ihFirst ihSecond =>
    simp only [tokens, List.mem_cons, List.mem_append, reduceCtorEq, false_or] at member
    rcases member with member | member | member
    · exact ihCondition valid.1 member
    · exact ihFirst valid.2.1 member
    · exact ihSecond valid.2.2 member

mutual

theorem FlatExpr.exists_phrase {tokens : List Token} (fit : NumbersFit tokens) :
    FlatExpr tokens → ∃ phrase : Phrase, phrase.Valid ∧ phrase.WellGrouped ∧ phrase.tokens = tokens
  | .chain chain => by
    obtain ⟨phrase, valid, grouped, _, same⟩ := chain.exists_phrase fit
    exact ⟨phrase, valid, grouped, same⟩
  | .conditional chain flatFirst flatSecond => by
    obtain ⟨fitCondition, fitBranches⟩ := NumbersFit.append.mp fit
    obtain ⟨fitFirst, fitSecond⟩ := NumbersFit.append.mp fitBranches.tail
    obtain ⟨condition, validCondition, groupedCondition, noConditional, rfl⟩ :=
      chain.exists_phrase fitCondition
    obtain ⟨first, validFirst, groupedFirst, rfl⟩ := flatFirst.exists_phrase fitFirst
    obtain ⟨second, validSecond, groupedSecond, rfl⟩ := flatSecond.exists_phrase fitSecond.tail
    exact ⟨.conditional condition first second, ⟨validCondition, validFirst, validSecond⟩,
      ⟨noConditional, groupedCondition, groupedFirst, groupedSecond⟩, rfl⟩

theorem FlatChain.exists_phrase {tokens : List Token} (fit : NumbersFit tokens) :
    FlatChain tokens → ∃ phrase : Phrase, phrase.Valid ∧ phrase.WellGrouped ∧
      ¬phrase.IsConditional ∧ phrase.tokens = tokens
  | .single operand => by
    obtain ⟨phrase, valid, grouped, unit, same⟩ := operand.exists_phrase fit
    exact ⟨phrase, valid, grouped, Phrase.not_isConditional_of_fits (unit 0), same⟩
  | .more op chain operand => by
    obtain ⟨fitChain, fitOperand⟩ := NumbersFit.append.mp fit
    obtain ⟨phrase, valid, grouped, noConditional, rfl⟩ := chain.exists_phrase fitChain
    obtain ⟨right, validRight, groupedRight, unit, rfl⟩ := operand.exists_phrase fitOperand.tail
    have longer : (Phrase.extend op right phrase).WellGrouped ∧
        ¬(Phrase.extend op right phrase).IsConditional :=
      Phrase.wellGrouped_extend grouped noConditional groupedRight unit
    exact ⟨.extend op right phrase, Phrase.valid_extend valid validRight, longer.1, longer.2,
      Phrase.tokens_extend op right phrase⟩

theorem FlatOperand.exists_phrase {tokens : List Token} (fit : NumbersFit tokens) :
    FlatOperand tokens → ∃ phrase : Phrase, phrase.Valid ∧ phrase.WellGrouped ∧
      (∀ level, phrase.Fits level) ∧ phrase.tokens = tokens
  | .prefixed op operand => by
    obtain ⟨phrase, valid, grouped, unit, rfl⟩ := operand.exists_phrase fit.tail
    exact ⟨.prefixed op phrase, valid, ⟨unit _, grouped⟩, fun _ => trivial, rfl⟩
  | .number digits =>
    ⟨.number digits, fit digits List.mem_cons_self, trivial, fun _ => trivial, rfl⟩
  | .bare free => ⟨.bare _, free, trivial, fun _ => trivial, rfl⟩
  | .reference name qualifier kind =>
    ⟨.reference _ name qualifier, kind, trivial, fun _ => trivial, rfl⟩
  | .call fn flatFirst flatSecond => by
    obtain ⟨fitFirst, fitLater⟩ := NumbersFit.append.mp fit.tail.tail
    obtain ⟨fitSecond, -⟩ := NumbersFit.append.mp fitLater.tail
    obtain ⟨first, validFirst, groupedFirst, rfl⟩ := flatFirst.exists_phrase fitFirst
    obtain ⟨second, validSecond, groupedSecond, rfl⟩ := flatSecond.exists_phrase fitSecond
    exact ⟨.call fn first second, ⟨validFirst, validSecond⟩, ⟨groupedFirst, groupedSecond⟩,
      fun _ => trivial, rfl⟩
  | .group flat => by
    obtain ⟨fitInner, -⟩ := NumbersFit.append.mp fit.tail
    obtain ⟨inner, valid, grouped, rfl⟩ := flat.exists_phrase fitInner
    exact ⟨.group inner, valid, grouped, fun _ => trivial, rfl⟩

end

/-! ### The texts that are accepted -/

/-- Which texts are accepted does not depend on precedence: within the limit of depth, they are those
of the flat grammar. -/
theorem parseFor_strict_accepts_iff {text : String} {owner : Owner} {depth : Nat}
    (nonBlank : text.toList.all Text.isBlank = false) (long : text.utf8ByteSize < depth) :
    (∃ formula, ({ options := .strict depth } : Parser).parseFor owner text = .ok formula) ↔
      (TokenStream.ofText text).fault = none ∧
      (∀ digits, .number digits ∈ (TokenStream.ofText text).tokens →
        Nat.ofDigitChars 10 digits.toList 0 < 0x8000000000000000) ∧
      FlatExpr (TokenStream.ofText text).tokens := by
  constructor
  · rintro ⟨formula, accepted⟩
    obtain ⟨phrase, spells, -, -⟩ := (parseFor_strict_eq_ok_iff nonBlank).mp accepted
    rw [spells.stream]
    refine ⟨rfl, fun digits member => ?_, (Phrase.flat_of_wellGrouped spells.valid spells.wellGrouped).1⟩
    exact wordOfDigits?_isSome_iff.mp (Phrase.numbersFit spells.valid digits member)
  · rintro ⟨complete, fit, flat⟩
    have fit : NumbersFit (TokenStream.ofText text).tokens :=
      fun digits member => wordOfDigits?_isSome_iff.mpr (fit digits member)
    obtain ⟨phrase, valid, grouped, same⟩ := flat.exists_phrase fit
    have spells : phrase.Spells text := by
      refine ⟨valid, grouped, ?_⟩
      rw [same, ← complete]
    exact ⟨phrase.formula owner, (parseFor_strict_eq_ok_iff nonBlank).mpr
      ⟨phrase, spells, rfl, spells.within owner (Nat.le_of_lt long)⟩⟩

theorem flatExpr_comparison : FlatExpr (TokenStream.ofText "2*-3<=lvl?5:6").tokens := by
  have spells : (Phrase.conditional (.between .lessEqual (.between .multiply (.number "2")
      (.prefixed .negate (.number "3"))) (.bare "lvl")) (.number "5") (.number "6")).Spells
      "2*-3<=lvl?5:6" := ⟨by decide, by decide, by decide +kernel⟩
  have accepted := parseFor_of_spells { options := .strict 14 } {} spells
  rw [if_pos (by decide)] at accepted
  exact ((parseFor_strict_accepts_iff spells.nonBlank (by decide)).mp ⟨_, accepted⟩).2.2

end TableFormula
