import TableFormula.Phrase.Writing
import TableFormula.Proofs.NumberWords
import TableFormula.Proofs.PhraseTokens
import TableFormula.Proofs.WholeFormula

namespace TableFormula

open Text

/-! ### Phrases that are read back as a formula -/

theorem isName_of_isReserved {name : String} (reserved : isReserved name = true) :
    Token.IsName name := by
  have kinds : ∀ kind ∈ propertyKinds, Token.IsName kind := by
    simp only [propertyKinds, List.forall_mem_cons]
    exact ⟨⟨_, _, rfl, by decide, by decide⟩, ⟨_, _, rfl, by decide, by decide⟩,
      ⟨_, _, rfl, by decide, by decide⟩, nofun⟩
  rcases Bool.or_eq_true_iff.mp reserved with kind | function
  · exact kinds name (List.contains_iff_mem.mp kind)
  · obtain ⟨fn, found⟩ := Option.isSome_iff_exists.mp function
    rw [Builtin.ofSymbol?_eq_some_iff.mp found]
    cases fn
    · exact ⟨_, _, rfl, by decide, by decide⟩
    · exact ⟨_, _, rfl, by decide, by decide⟩
    · exact ⟨_, _, rfl, by decide, by decide⟩

namespace Phrase

theorem wellFormed_reference {kind name qualifier : String} (found : isPropertyKind kind = true)
    (quoted : Token.quoteMark ∉ name.toList) (qualified : Token.IsName qualifier) :
    ∀ token ∈ (reference kind name qualifier).tokens, token.WellFormed := by
  have symbol : ∀ text ∈ Token.symbols, (Token.symbol text).WellFormed := fun _ listed => listed
  simp only [tokens, List.forall_mem_cons]
  exact ⟨isName_of_isReserved (isReserved_of_isPropertyKind found), symbol _ (by decide), quoted,
    symbol _ (by decide), qualified, symbol _ (by decide), List.forall_mem_nil _⟩

/-- Whether a phrase, written as a text, is read back as a formula. -/
structure Renders (owner : Owner) (formula : Formula) (phrase : Phrase) : Prop where
  valid : phrase.Valid
  wellGrouped : phrase.WellGrouped
  wellFormed : ∀ token ∈ phrase.tokens, token.WellFormed
  formula : phrase.formula owner = formula

namespace Renders

variable {owner : Owner} {a b c : Formula} {first second third : Phrase}

theorem symbol {text : String} (listed : text ∈ Token.symbols) : (Token.symbol text).WellFormed :=
  listed

theorem number {value : Int64} (positive : 0 ≤ value.toInt) :
    (Phrase.number value.toInt.repr).Renders owner (.constant value) where
  valid := by rw [Valid, wordOfDigits?_repr positive, Option.isSome_some]
  wellGrouped := trivial
  wellFormed := by
    intro token member
    rw [List.mem_singleton.mp member]
    exact wellFormed_number positive
  formula := by rw [Phrase.formula, wordOfDigits?_repr positive, Option.getD_some]

theorem property {reference : Reference} (writable : reference.Writable owner) :
    (Formula.referencePhrase reference).Renders owner (.property reference) := by
  obtain ⟨qualified, free⟩ := writable
  by_cases full : isPropertyKind reference.kind ∧ Token.quoteMark ∉ reference.name.toList
  · rw [Formula.referencePhrase, if_pos full]
    obtain ⟨kind, quoted⟩ := full
    exact ⟨kind, trivial, wellFormed_reference kind quoted qualified, rfl⟩
  · rw [Formula.referencePhrase, if_neg full]
    obtain ⟨same, notReserved⟩ := free.resolve_left full
    refine ⟨notReserved, trivial, ?_, ?_⟩
    · intro token member
      rw [List.mem_singleton.mp member]
      exact qualified
    · rw [Phrase.formula, ← same]

theorem group (h : first.Renders owner a) : (Phrase.group first).Renders owner a := by
  refine ⟨h.valid, h.wellGrouped, ?_, h.formula⟩
  simp only [tokens, List.forall_mem_cons, List.forall_mem_append]
  exact ⟨symbol (by decide), h.wellFormed, symbol (by decide), List.forall_mem_nil _⟩

theorem call (fn : Builtin) (left : first.Renders owner a) (right : second.Renders owner b) :
    (Phrase.call fn first second).Renders owner (.binary (.call fn) a b) := by
  have named : Token.IsName fn.symbol :=
    isName_of_isReserved (isReserved_of_ofSymbol? fn.ofSymbol?_symbol)
  refine ⟨⟨left.valid, right.valid⟩, ⟨left.wellGrouped, right.wellGrouped⟩, ?_, ?_⟩
  · simp only [tokens, List.forall_mem_cons, List.forall_mem_append]
    exact ⟨named, symbol (by decide), left.wellFormed, symbol (by decide), right.wellFormed,
      symbol (by decide), List.forall_mem_nil _⟩
  · rw [Phrase.formula, left.formula, right.formula]

theorem prefixed (op : PrefixOp) (h : first.Renders owner a) (fits : first.Fits op.precedence) :
    (Phrase.prefixed op first).Renders owner (.unary op a) := by
  refine ⟨h.valid, ⟨fits, h.wellGrouped⟩, ?_, ?_⟩
  · simp only [tokens, List.forall_mem_cons]
    exact ⟨symbol (by cases op <;> decide), h.wellFormed⟩
  · rw [Phrase.formula, h.formula]

theorem between (op : InfixOp) (left : first.Renders owner a) (right : second.Renders owner b)
    (precedes : first.Precedes op.precedence) (fits : second.Fits op.operandLevel) :
    (Phrase.between op first second).Renders owner (.binary (.between op) a b) := by
  refine ⟨⟨left.valid, right.valid⟩, ⟨precedes, fits, left.wellGrouped, right.wellGrouped⟩, ?_, ?_⟩
  · simp only [tokens, List.forall_mem_cons, List.forall_mem_append]
    exact ⟨left.wellFormed, symbol (by cases op <;> decide), right.wellFormed⟩
  · rw [Phrase.formula, left.formula, right.formula]

theorem conditional (condition : first.Renders owner a) (left : second.Renders owner b)
    (right : third.Renders owner c) (noConditional : ¬first.IsConditional) :
    (Phrase.conditional first second third).Renders owner (.conditional a b c) := by
  refine ⟨⟨condition.valid, left.valid, right.valid⟩,
    ⟨noConditional, condition.wellGrouped, left.wellGrouped, right.wellGrouped⟩, ?_, ?_⟩
  · simp only [tokens, List.forall_mem_cons, List.forall_mem_append]
    exact ⟨condition.wellFormed, symbol (by decide), left.wellFormed, symbol (by decide),
      right.wellFormed⟩
  · rw [Phrase.formula, condition.formula, left.formula, right.formula]

end Renders

theorem Renders.enclose {owner : Owner} {formula : Formula} {phrase : Phrase} (bare : Prop)
    [Decidable bare] (h : phrase.Renders owner formula) :
    (Formula.enclose bare phrase).Renders owner formula := by
  unfold Formula.enclose
  split
  · exact h
  · exact h.group

theorem fits_enclose (level : Nat) (phrase : Phrase) :
    (Formula.enclose (phrase.Fits level) phrase).Fits level := by
  unfold Formula.enclose
  split
  · assumption
  · trivial

theorem precedes_enclose (precedence : Nat) (phrase : Phrase) :
    (Formula.enclose (phrase.Precedes precedence) phrase).Precedes precedence := by
  unfold Formula.enclose
  split
  · assumption
  · exact ⟨nofun, nofun⟩

theorem not_isConditional_enclose (phrase : Phrase) :
    ¬(Formula.enclose (¬phrase.IsConditional) phrase).IsConditional := by
  unfold Formula.enclose
  split
  · assumption
  · exact nofun

end Phrase

namespace Formula

variable {owner : Owner} {formula : Formula}

theorem minimal_renders (writable : formula.Writable owner) :
    formula.minimal.Renders owner formula := by
  induction formula with
  | constant value => exact .number writable
  | unary op operand ih =>
    exact ((ih writable).enclose _).prefixed op (Phrase.fits_enclose _ _)
  | binary op left right ihLeft ihRight =>
    cases op with
    | between op =>
      exact ((ihLeft writable.1).enclose _).between op ((ihRight writable.2).enclose _)
        (Phrase.precedes_enclose _ _) (Phrase.fits_enclose _ _)
    | call fn => exact (ihLeft writable.1).call fn (ihRight writable.2)
  | conditional condition first second ihCondition ihFirst ihSecond =>
    exact ((ihCondition writable.1).enclose _).conditional (ihFirst writable.2.1)
      (ihSecond writable.2.2) (Phrase.not_isConditional_enclose _)
  | property reference => exact .property writable

theorem full_renders (writable : formula.Writable owner) : formula.full.Renders owner formula := by
  induction formula with
  | constant value => exact .number writable
  | unary op operand ih => exact (ih writable).group.prefixed op trivial
  | binary op left right ihLeft ihRight =>
    cases op with
    | between op =>
      exact (ihLeft writable.1).group.between op (ihRight writable.2).group ⟨nofun, nofun⟩ trivial
    | call fn => exact (ihLeft writable.1).call fn (ihRight writable.2)
  | conditional condition first second ihCondition ihFirst ihSecond =>
    exact (ihCondition writable.1).group.conditional (ihFirst writable.2.1).group
      (ihSecond writable.2.2).group nofun
  | property reference => exact .property writable

end Formula

/-! ### Short names of the owner's properties -/

namespace Phrase

/-- The phrase with the owner's properties written by their qualifiers alone, where those are free. -/
def shorten (owner : Owner) : Phrase → Phrase
  | reference kind name qualifier =>
    if ⟨kind, name, qualifier⟩ = owner.reference qualifier ∧ isReserved qualifier = false then
      .bare qualifier
    else .reference kind name qualifier
  | call fn first second => .call fn (first.shorten owner) (second.shorten owner)
  | group inner => .group (inner.shorten owner)
  | prefixed op operand => .prefixed op (operand.shorten owner)
  | between op left right => .between op (left.shorten owner) (right.shorten owner)
  | conditional condition first second =>
    .conditional (condition.shorten owner) (first.shorten owner) (second.shorten owner)
  | phrase => phrase

variable (owner : Owner)

theorem isConditional_shorten (phrase : Phrase) :
    (phrase.shorten owner).IsConditional ↔ phrase.IsConditional := by
  cases phrase with
  | reference => unfold shorten; split <;> exact Iff.rfl
  | number | bare | call | group | prefixed | between | conditional => exact Iff.rfl

theorem fits_shorten (level : Nat) (phrase : Phrase) :
    (phrase.shorten owner).Fits level ↔ phrase.Fits level := by
  cases phrase with
  | reference => unfold shorten; split <;> exact Iff.rfl
  | number | bare | call | group | prefixed | between | conditional => exact Iff.rfl

theorem edgeLevels_shorten (phrase : Phrase) :
    (phrase.shorten owner).edgeLevels = phrase.edgeLevels := by
  induction phrase with
  | reference => unfold shorten; split <;> rfl
  | prefixed op operand ih => rw [shorten, edgeLevels, edgeLevels, ih]
  | between op left right _ ih => rw [shorten, edgeLevels, edgeLevels, ih]
  | conditional condition first second _ _ ih => rw [shorten, edgeLevels, edgeLevels, ih]
  | number | bare | call | group => rfl

theorem wellGrouped_shorten {phrase : Phrase} (grouped : phrase.WellGrouped) :
    (phrase.shorten owner).WellGrouped := by
  induction phrase with
  | reference => unfold shorten; split <;> trivial
  | number | bare => trivial
  | call fn first second ihFirst ihSecond => exact ⟨ihFirst grouped.1, ihSecond grouped.2⟩
  | group inner ih => exact ih grouped
  | prefixed op operand ih => exact ⟨(fits_shorten owner _ _).mpr grouped.1, ih grouped.2⟩
  | between op left right ihLeft ihRight =>
    obtain ⟨⟨noConditional, edge⟩, fits, groupedLeft, groupedRight⟩ := grouped
    refine ⟨⟨?_, ?_⟩, (fits_shorten owner _ _).mpr fits, ihLeft groupedLeft, ihRight groupedRight⟩
    · rwa [isConditional_shorten]
    · rwa [edgeLevels_shorten]
  | conditional condition first second ihCondition ihFirst ihSecond =>
    obtain ⟨noConditional, groupedCondition, groupedFirst, groupedSecond⟩ := grouped
    refine ⟨?_, ihCondition groupedCondition, ihFirst groupedFirst, ihSecond groupedSecond⟩
    rwa [isConditional_shorten]

theorem formula_shorten (phrase : Phrase) :
    (phrase.shorten owner).formula owner = phrase.formula owner := by
  induction phrase with
  | reference kind name qualifier =>
    unfold shorten
    split
    · rename_i short
      rw [formula, formula, short.1]
    · rfl
  | number | bare => rfl
  | call fn first second ihFirst ihSecond => rw [shorten, formula, formula, ihFirst, ihSecond]
  | group inner ih => exact ih
  | prefixed op operand ih => rw [shorten, formula, formula, ih]
  | between op left right ihLeft ihRight => rw [shorten, formula, formula, ihLeft, ihRight]
  | conditional condition first second ihCondition ihFirst ihSecond =>
    rw [shorten, formula, formula, ihCondition, ihFirst, ihSecond]

theorem valid_shorten {phrase : Phrase} (valid : phrase.Valid) : (phrase.shorten owner).Valid := by
  induction phrase with
  | reference =>
    unfold shorten
    split
    · rename_i short
      exact short.2
    · exact valid
  | number | bare => exact valid
  | call fn first second ihFirst ihSecond => exact ⟨ihFirst valid.1, ihSecond valid.2⟩
  | group inner ih => exact ih valid
  | prefixed op operand ih => exact ih valid
  | between op left right ihLeft ihRight => exact ⟨ihLeft valid.1, ihRight valid.2⟩
  | conditional condition first second ihCondition ihFirst ihSecond =>
    exact ⟨ihCondition valid.1, ihFirst valid.2.1, ihSecond valid.2.2⟩

theorem mem_tokens_shorten {phrase : Phrase} {token : Token}
    (member : token ∈ (phrase.shorten owner).tokens) : token ∈ phrase.tokens := by
  induction phrase with
  | reference kind name qualifier =>
    unfold shorten at member
    split at member
    · rw [List.mem_singleton.mp member]
      simp [tokens]
    · exact member
  | number | bare => exact member
  | call fn first second ihFirst ihSecond =>
    simp only [shorten, tokens, List.mem_cons, List.mem_append] at member ⊢
    grind
  | group inner ih =>
    simp only [shorten, tokens, List.mem_cons, List.mem_append] at member ⊢
    grind
  | prefixed op operand ih =>
    simp only [shorten, tokens, List.mem_cons] at member ⊢
    grind
  | between op left right ihLeft ihRight =>
    simp only [shorten, tokens, List.mem_cons, List.mem_append] at member ⊢
    grind
  | conditional condition first second ihCondition ihFirst ihSecond =>
    simp only [shorten, tokens, List.mem_cons, List.mem_append] at member ⊢
    grind

theorem Renders.shorten {owner : Owner} {formula : Formula} {phrase : Phrase}
    (h : phrase.Renders owner formula) : (phrase.shorten owner).Renders owner formula where
  valid := valid_shorten owner h.valid
  wellGrouped := wellGrouped_shorten owner h.wellGrouped
  wellFormed token member := h.wellFormed token (mem_tokens_shorten owner member)
  formula := (formula_shorten owner phrase).trans h.formula

end Phrase

/-! ### What is read can be written -/

theorem Phrase.writable_formula {phrase : Phrase} (owner : Owner) (valid : phrase.Valid)
    (wellFormed : ∀ token ∈ phrase.tokens, token.WellFormed) :
    (phrase.formula owner).Writable owner := by
  induction phrase with
  | number digits =>
    obtain ⟨value, found⟩ := Option.isSome_iff_exists.mp valid
    have positive := toInt_nonneg_of_wordOfDigits? found
    rwa [Phrase.formula, found]
  | bare name =>
    have named : Token.IsName name := wellFormed _ List.mem_cons_self
    exact ⟨named, .inr ⟨rfl, valid⟩⟩
  | reference kind name qualifier =>
    have qualified : Token.IsName qualifier := wellFormed (.name qualifier) (by simp [tokens])
    have quoted : Token.quoteMark ∉ name.toList := wellFormed (.string name) (by simp [tokens])
    exact ⟨qualified, .inl ⟨valid, quoted⟩⟩
  | call fn first second ihFirst ihSecond =>
    simp only [tokens, List.forall_mem_cons, List.forall_mem_append] at wellFormed
    obtain ⟨-, -, inFirst, -, inSecond, -⟩ := wellFormed
    exact ⟨ihFirst valid.1 inFirst, ihSecond valid.2 inSecond⟩
  | group inner ih =>
    simp only [tokens, List.forall_mem_cons, List.forall_mem_append] at wellFormed
    exact ih valid wellFormed.2.1
  | prefixed op operand ih =>
    exact ih valid (List.forall_mem_cons.mp wellFormed).2
  | between op left right ihLeft ihRight =>
    simp only [tokens, List.forall_mem_cons, List.forall_mem_append] at wellFormed
    exact ⟨ihLeft valid.1 wellFormed.1, ihRight valid.2 wellFormed.2.2⟩
  | conditional condition first second ihCondition ihFirst ihSecond =>
    simp only [tokens, List.forall_mem_cons, List.forall_mem_append] at wellFormed
    obtain ⟨inCondition, -, inFirst, -, inSecond⟩ := wellFormed
    exact ⟨ihCondition valid.1 inCondition, ihFirst valid.2.1 inFirst, ihSecond valid.2.2 inSecond⟩

/-! ### Writing and reading a formula -/

section

variable {owner : Owner} {formula : Formula}

theorem Phrase.Renders.spells {phrase : Phrase} (renders : phrase.Renders owner formula)
    {spaced : SpacedTokens} {last : List Char} (same : spaced.map (·.2) = phrase.tokens)
    (blank : ∀ pair ∈ spaced, pair.1.all isBlank = true) (lastBlank : last.all isBlank = true) :
    phrase.Spells (String.ofList (spaced.written last)) := by
  have apart : spaced.Spaced := SpacedTokens.spaced_of_apart blank (same ▸ phrase.embeds.apart)
  have wellFormed : ∀ pair ∈ spaced, pair.2.WellFormed := fun pair member =>
    renders.wellFormed pair.2 (same ▸ List.mem_map_of_mem member)
  refine ⟨renders.valid, renders.wellGrouped, ?_⟩
  rw [TokenStream.ofText, String.toList_ofList, SpacedTokens.ofChars_written apart wellFormed lastBlank,
    same]

theorem writable_of_parseFor {parser : Parser} {text : String}
    (accepted : parser.parseFor owner text = .ok formula) : formula.Writable owner := by
  cases blank : text.toList.all isBlank with
  | true =>
    rw [parseFor_blank parser owner blank] at accepted
    cases accepted
    show 0 ≤ Int64.toInt 0
    decide
  | false =>
    rw [parseFor_eq_readFormula _ _ blank] at accepted
    obtain ⟨phrase, rest, reads, rfl, -, -⟩ :=
      reads_of_readFormula (TokenStream.endOfInput_notMem _ _) accepted
    obtain ⟨missing, -, written, -⟩ := reads.writes
    refine phrase.writable_formula owner reads.settled.valid fun token member => ?_
    have inText : token ∈ [] ++ (TokenStream.ofChars 0 (trim text.toList)).tokens ++ closings missing :=
      written ▸ List.mem_append_left rest member
    rcases List.mem_append.mp inText with read | closing
    · exact TokenStream.wellFormed_of_mem token read
    · rw [List.eq_of_mem_replicate closing]
      exact Phrase.Renders.symbol (by decide)

/-- A formula is read back from both ways to write it, with the owner's properties in full or short
and with any blanks between the tokens, and only formulas that can be written are ever read. -/
theorem parseFor_written_and_writable (owner : Owner) (formula : Formula) :
    (formula.Writable owner → ∀ (options : Options) (way phrase : Phrase),
      way = formula.minimal ∨ way = formula.full → phrase = way ∨ phrase = way.shorten owner →
      phrase.nest ≤ options.maxDepth → formula.height ≤ options.maxDepth →
      ∀ (spaced : SpacedTokens) (last : List Char), spaced.map (·.2) = phrase.tokens →
      (∀ pair ∈ spaced, pair.1.all isBlank = true) → last.all isBlank = true →
      ({ options } : Parser).parseFor owner (String.ofList (spaced.written last)) = .ok formula) ∧
    ∀ (parser : Parser) (text : String), parser.parseFor owner text = .ok formula →
      formula.Writable owner := by
  refine ⟨?_, fun parser text => writable_of_parseFor⟩
  intro writable options way phrase ways names nest height spaced last same blank lastBlank
  have wayRenders : way.Renders owner formula := by
    rcases ways with rfl | rfl
    · exact Formula.minimal_renders writable
    · exact Formula.full_renders writable
  have renders : phrase.Renders owner formula := by
    rcases names with rfl | rfl
    · exact wayRenders
    · exact wayRenders.shorten
  have within : phrase.Within options.maxDepth owner 0 := by
    refine ⟨by omega, ?_⟩
    rwa [renders.formula]
  rw [parseFor_of_spells _ _ (renders.spells same blank lastBlank), if_pos within, renders.formula]

theorem parseFor_written_negated_sum :
    ({} : Parser).parseFor {} "-(1+skill('Zeal'.lvl))" =
      .ok (.unary .negate (.binary (.between .add) (.constant 1)
        (.property ⟨"skill", "Zeal", "lvl"⟩))) := by
  have named : Token.IsName "lvl" := ⟨'l', ['v', 'l'], rfl, by decide, by decide⟩
  have quoted : Token.quoteMark ∉ "Zeal".toList := by decide
  let sum : Formula := .binary (.between .add) (.constant 1) (.property ⟨"skill", "Zeal", "lvl"⟩)
  let formula : Formula := .unary .negate sum
  have positive : 0 ≤ Int64.toInt 1 := by decide
  have writable : formula.Writable {} := ⟨positive, named, .inl ⟨by decide, quoted⟩⟩
  let spaced : SpacedTokens := formula.minimal.tokens.map (([], ·))
  have text : String.ofList (spaced.written []) = "-(1+skill('Zeal'.lvl))" := by decide
  rw [← text]
  exact (parseFor_written_and_writable {} formula).1 writable {} _ formula.minimal (.inl rfl)
    (.inl rfl) (by decide) (by decide) spaced [] (by decide) (by decide) rfl

end

end TableFormula
