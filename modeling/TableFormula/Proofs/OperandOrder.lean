import TableFormula.Grammar.Leaves
import TableFormula.Proofs.NumberWords
import TableFormula.Proofs.WholeFormula

namespace TableFormula

/-- The leaves that were read before a place. -/
def Place.leaves (owner : Owner) : Place → List Leaf
  | formula _ | operand => []
  | infixTail _ read | conditionalTail _ read => (read.formula owner).leaves

section

variable {owner : Owner} {afterDot : Bool} {behind : List Token}

theorem leavesOf_of_takesInfix {least : Nat} {token : Token} {op : InfixOp}
    (taken : takesInfix least token = some op) :
    leavesOf owner afterDot (token :: behind) = leavesOf owner false behind := by
  obtain ⟨rfl, -⟩ := takesInfix_eq_some_iff.mp taken
  exact leavesOf_symbol op.symbol_ne_dot

theorem leavesOf_of_takesConditional {least : Nat} {token : Token}
    (taken : takesConditional least token = true) :
    leavesOf owner afterDot (token :: behind) = leavesOf owner false behind := by
  obtain ⟨rfl, -⟩ := takesConditional_iff.mp taken
  exact leavesOf_symbol (by decide)

theorem leavesOf_prefixOp {text : String} {op : PrefixOp} (found : PrefixOp.ofSymbol? text = some op) :
    leavesOf owner afterDot (.symbol text :: behind) = leavesOf owner false behind := by
  obtain rfl := PrefixOp.ofSymbol?_eq_some_iff.mp found
  exact leavesOf_symbol op.symbol_ne_dot

theorem leaves_number {digits : String} (fits : (wordOfDigits? digits).isSome = true) :
    ((Phrase.number digits).formula owner).leaves =
      [.constant (Nat.ofDigitChars 10 digits.toList 0)] := by
  obtain ⟨value, found⟩ := Option.isSome_iff_exists.mp fits
  obtain ⟨small, rfl⟩ := wordOfDigits?_eq_some_iff.mp found
  rw [Phrase.formula, found, Formula.leaves, Option.getD_some, Int64.toInt_ofNat_of_lt small]

/-- What is read adds its leaves to those before it and takes them from the tokens. -/
theorem Reads.leaves {lenient : Bool} {place : Place} {tokens rest : List Token} {phrase : Phrase}
    (h : Reads lenient place tokens phrase rest) :
    place.leaves owner ++ leavesOf owner false tokens =
      (phrase.formula owner).leaves ++ leavesOf owner false rest := by
  induction h with
  | formula _ _ _ ihFirst ihChain ihWhole => exact ihFirst.trans (ihChain.trans ihWhole)
  | infixEnd | conditionalEnd => rfl
  | infixMore taken _ _ ihRight ihWhole =>
    rw [leavesOf_of_takesInfix taken, ← ihWhole]
    simp only [Place.leaves, List.nil_append] at ihRight
    simp only [Place.leaves, Phrase.formula, Formula.leaves, List.append_assoc]
    rw [ihRight]
  | conditionalMore taken _ _ _ ihFirst ihSecond ihWhole =>
    rw [leavesOf_of_takesConditional taken, ← ihWhole]
    simp only [Place.leaves, List.nil_append] at ihFirst ihSecond
    simp only [Place.leaves, Phrase.formula, Formula.leaves, List.append_assoc]
    rw [ihFirst, leavesOf_symbol (by decide), ihSecond]
  | number fits => rw [leavesOf_number, leaves_number fits]; rfl
  | bare free _ => exact leavesOf_bare free
  | reference kind => exact leavesOf_reference kind
  | call called _ _ ihFirst ihSecond =>
    simp only [Place.leaves, List.nil_append] at ihFirst ihSecond
    simp only [Place.leaves, List.nil_append, Phrase.formula, Formula.leaves, List.append_assoc]
    rw [leavesOf_builtin (isPropertyKind_of_ofSymbol? called) (by rw [called]; rfl),
      leavesOf_symbol (by decide), ihFirst, leavesOf_symbol (by decide), ihSecond,
      leavesOf_symbol (by decide)]
  | prefixed found _ ih =>
    rw [leavesOf_prefixOp found]
    exact ih
  | group _ ih =>
    rw [leavesOf_symbol (by decide)]
    rw [leavesOf_symbol (by decide)] at ih
    exact ih
  | unclosed _ _ ih =>
    rw [leavesOf_symbol (by decide)]
    exact ih

end

/-- The leaves of a formula are those of its text, in the order of the text. -/
theorem leaves_of_parseFor {parser : Parser} {owner : Owner} {text : String} {formula : Formula}
    (nonBlank : text.toList.all Text.isBlank = false) (strict : parser.options.rejectTrailing = true)
    (accepted : parser.parseFor owner text = .ok formula) :
    formula.leaves = leavesOf owner false (TokenStream.ofText text).tokens ∧
      formula.references =
        (leavesOf owner false (TokenStream.ofText text).tokens).filterMap Leaf.reference? := by
  obtain ⟨phrase, rest, reads, rfl, -, whole⟩ := reads_of_parseFor nonBlank accepted
  obtain rfl := whole strict
  have leaves : (phrase.formula owner).leaves =
      leavesOf owner false (TokenStream.ofText text).tokens := by
    simpa only [Place.leaves, leavesOf, List.nil_append, List.append_nil] using reads.leaves.symm
  exact ⟨leaves, by rw [Formula.references_eq_filterMap_leaves, leaves]⟩

/-- In `lvl+skill('Zeal'.lvl)*2` the product binds more tightly than the sum, and the properties are
still collected from left to right. -/
theorem leaves_of_parseFor_sum : ∃ formula : Formula,
    ({} : Parser).parseFor ⟨"skill", "Holy Fire"⟩ "lvl+skill('Zeal'.lvl)*2" = .ok formula ∧
      formula.leaves = [.property ⟨"skill", "Holy Fire", "lvl"⟩,
        .property ⟨"skill", "Zeal", "lvl"⟩, .constant 2] ∧
      formula.references = [⟨"skill", "Holy Fire", "lvl"⟩, ⟨"skill", "Zeal", "lvl"⟩] := by
  have spells : (Phrase.between .add (.bare "lvl")
      (.between .multiply (.reference "skill" "Zeal" "lvl") (.number "2"))).Spells
        "lvl+skill('Zeal'.lvl)*2" := ⟨by decide, by decide, by decide +kernel⟩
  have accepted := parseFor_of_spells {} ⟨"skill", "Holy Fire"⟩ spells
  rw [if_pos (by decide)] at accepted
  obtain ⟨leaves, references⟩ := leaves_of_parseFor spells.nonBlank rfl accepted
  rw [spells.stream] at leaves references
  exact ⟨_, accepted, leaves, references⟩

end TableFormula
