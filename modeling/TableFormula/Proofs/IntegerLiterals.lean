import TableFormula.Proofs.FlatPhrases
import TableFormula.Proofs.Lexing
import TableFormula.Proofs.NumberPlaces
import TableFormula.Proofs.NumberWords
import TableFormula.Proofs.PhraseTokens
import TableFormula.Proofs.TwoPhases

namespace TableFormula

open Text

/-! ### Numbers in the place of each other -/

namespace Token

theorem fuses_number (token : Token) (a b : String) :
    token.fuses (number a) = token.fuses (number b) := by
  cases token with
  | symbol text =>
    have apart : ∀ digits, (symbol text).fuses (number digits) = false := fun digits =>
      symbol_apart text (by simp)
    rw [apart, apart]
  | name | string | number | endOfInput => rfl

theorem number_fuses (a b : String) (next : Token) :
    (number a).fuses next = (number b).fuses next := by
  cases next <;> rfl

end Token

namespace SpacedTokens

variable {front back : SpacedTokens} {blanks : List Char} {old digits : String}

theorem Spaced.number (digits : String) (spaced : Spaced (front ++ (blanks, .number old) :: back)) :
    Spaced (front ++ (blanks, .number digits) :: back) := by
  induction front with
  | nil =>
    cases back with
    | nil => exact spaced
    | cons next back =>
      obtain ⟨blank, apart, later⟩ := spaced
      rw [Token.number_fuses old digits] at apart
      exact ⟨blank, apart, later⟩
  | cons first front ih =>
    cases front with
    | nil =>
      obtain ⟨blank, apart, later⟩ := spaced
      rw [Token.fuses_number _ old digits] at apart
      exact ⟨blank, apart, ih later⟩
    | cons next front =>
      obtain ⟨blank, apart, later⟩ := spaced
      exact ⟨blank, apart, ih later⟩

end SpacedTokens

/-! ### The place of a number -/

theorem Text.append_inj_of_byteSize {a b c d : List Char} (same : a ++ b = c ++ d)
    (size : byteSize a = byteSize c) : a = c := by
  obtain ⟨more, rfl, -⟩ | ⟨more, rfl, -⟩ := List.append_eq_append_iff.mp same
  all_goals
    have := length_le_byteSize more
    rw [byteSize_append] at size
    obtain rfl : more = [] := List.eq_nil_of_length_eq_zero (by omega)
    simp

theorem SpacedTokens.exists_of_getElem?_places {position index place : Nat} {tokens : SpacedTokens}
    {token : Token} (given : (tokens.places position)[index]? = some (.ok token, place)) :
    ∃ (before behind : SpacedTokens) (blanks : List Char),
      tokens = before ++ (blanks, token) :: behind ∧ before.length = index := by
  induction tokens generalizing position index with
  | nil => cases given
  | cons first tokens ih =>
    cases index with
    | zero =>
      cases given
      exact ⟨[], tokens, first.1, rfl, rfl⟩
    | succ index =>
      obtain ⟨before, behind, blanks, rfl, rfl⟩ := ih given
      exact ⟨first :: before, behind, blanks, rfl, rfl⟩

/-- A token that a lexer gives stands where its spelling ends at the lexer's position. -/
theorem Lexer.exists_of_drain {text : String} {front back : List Char} {index : Nat} {token : Token}
    (proper : token ≠ .endOfInput) (split : text.toList = front ++ token.spelling ++ back)
    (given : (ofText text).drain[index]? =
      some (.ok token, byteSize (front ++ token.spelling))) :
    ∃ (before behind : SpacedTokens) (blanks gap rest : List Char), before.length = index ∧
      before.written blanks = front ∧ behind.written (gap ++ rest) = back ∧
      SpacedTokens.Legible (gap ++ rest) (before ++ (blanks, token) :: behind) ∧
      gap.all isBlank = true ∧ ((TokenStream.ofText text).fault = none → rest = []) ∧
      (TokenStream.ofText text).tokens = before.map (·.2) ++ token :: behind.map (·.2) := by
  obtain ⟨tokens, gap, rest, spelled, legible, blank, same, stops, drained⟩ := exists_drain text
  rw [drained, List.getElem?_append] at given
  split at given
  · obtain ⟨before, behind, blanks, rfl, rfl⟩ := SpacedTokens.exists_of_getElem?_places given
    rw [SpacedTokens.getElem?_places, Nat.zero_add] at given
    have place : byteSize (before.written blanks ++ token.spelling) =
        byteSize (front ++ token.spelling) := by
      have := SpacedTokens.written_middle before [] blanks [] token
      rw [SpacedTokens.written, List.append_nil] at this
      rw [← this]
      exact congrArg Prod.snd (Option.some.inj given)
    rw [SpacedTokens.written_middle, split] at spelled
    obtain inFront := Text.append_inj_of_byteSize spelled place
    obtain rfl := List.append_cancel_right inFront
    refine ⟨before, behind, blanks, gap, rest, rfl, rfl, List.append_cancel_left spelled, legible,
      blank, fun sound => ?_, ?_⟩
    · rw [sound] at stops
      exact stops
    · rw [← same, List.map_append, List.map_cons]
  · have last := congrArg Prod.fst (List.mem_singleton.mp (List.mem_of_getElem? given))
    exact absurd last.symm (TokenStream.ending_ne_ok proper _)

/-- The text with another number in the place of one has its tokens but for that number. -/
theorem ofText_written_number {front back : SpacedTokens} {blanks gap : List Char}
    {old digits : String} (formed : (Token.number digits).WellFormed)
    (legible : SpacedTokens.Legible gap (front ++ (blanks, .number old) :: back))
    (blank : gap.all isBlank = true) :
    TokenStream.ofText (String.ofList (front.written blanks ++ digits.toList ++ back.written gap)) =
      { tokens := front.map (·.2) ++ .number digits :: back.map (·.2) } := by
  obtain ⟨spaced, wellFormed, -⟩ := SpacedTokens.legible_iff.mp legible
  have same := SpacedTokens.written_middle front back blanks gap (.number digits)
  have allFormed : ∀ pair ∈ front ++ (blanks, .number digits) :: back, pair.2.WellFormed := by
    rw [List.forall_mem_append, List.forall_mem_cons] at wellFormed ⊢
    exact ⟨wellFormed.1, formed, wellFormed.2.2⟩
  have read : TokenStream.ofChars 0 _ = _ :=
    SpacedTokens.ofChars_written (spaced.number digits) allFormed blank
  rw [same, List.map_append, List.map_cons] at read
  rw [TokenStream.ofText, String.toList_ofList]
  exact read

/-! ### Literals in a formula -/

/-- Whether a literal gives a formula with its value, if a word holds that, and is reported with all
its digits otherwise. -/
structure ReadsLiteral (literal : String) (formula : Int64 → Formula)
    (result : Except ParseError Formula) : Prop where
  value : Nat.ofDigitChars 10 literal.toList 0 ≤ 9223372036854775807 → ∃ value : Int64,
    value.toInt = Nat.ofDigitChars 10 literal.toList 0 ∧ result = .ok (formula value)
  tooLarge : 9223372036854775807 < Nat.ofDigitChars 10 literal.toList 0 →
    result = .error (.invalidNumber literal)

section

variable {options : Options} {parser : Parser} {owner : Owner} {text literal old : String}
  {tokens : List Token} {phrase : Phrase} {n : Nat}

theorem readFormula_literal (reads : Reads options.allowUnclosedParens (.formula 0) tokens phrase [])
    (within : phrase.Within options.maxDepth owner 0) (inside : n < phrase.numbers)
    (literal : String) : ReadsLiteral literal ((phrase.formula owner).setConstant n)
      (readFormula options owner
        ({ tokens := renumber (writeAt n literal) 0 tokens } : TokenStream)) where
  value small := by
    obtain ⟨value, found⟩ := Option.isSome_iff_exists.mp
      (wordOfDigits?_isSome_iff.mpr (Nat.lt_succ_of_le small))
    exact ⟨value, toInt_of_wordOfDigits? found, readFormula_writeAt found reads within⟩
  tooLarge large := by
    have unfit : wordOfDigits? literal = none := Option.not_isSome_iff_eq_none.mp fun fits =>
      absurd (wordOfDigits?_isSome_iff.mp fits) (Nat.not_lt.mpr large)
    exact readFormula_unfit unfit reads within inside

theorem parseFor_literal (formed : (Token.number literal).WellFormed)
    (deep : 0 < parser.options.maxDepth) :
    ReadsLiteral literal .constant (parser.parseFor owner literal) := by
  have written : SpacedTokens.written [([], .number literal)] [] = literal.toList :=
    List.append_nil _
  have stream : TokenStream.ofText literal = { tokens := [.number literal] } := by
    rw [TokenStream.ofText, ← written]
    exact SpacedTokens.ofChars_written rfl (List.forall_mem_singleton.mpr formed) rfl
  have reads : Reads parser.options.allowUnclosedParens (.formula 0) [.number "0"] (.number "0") [] :=
    .formula (.number (by decide)) (.infixEnd rfl) (.conditionalEnd rfl)
  rw [parseFor_of_ofText (List.cons_ne_nil _ _) stream]
  exact readFormula_literal reads ⟨deep, deep⟩ Nat.zero_lt_one literal

/-- A number that was read is the constant of its place. -/
theorem constants_of_reads {lenient : Bool} {front back : List Token}
    (reads : Reads lenient (.formula 0) (front ++ .number old :: back) phrase []) (owner : Owner) :
    ∃ value : Int64, value.toInt = Nat.ofDigitChars 10 old.toList 0 ∧
      (phrase.formula owner).constants[(digitsOf front).length]? = some value := by
  have digits : digitsOf phrase.tokens = digitsOf front ++ old :: digitsOf back := by
    have same := reads.digitsOf_eq
    rw [digitsOf_append] at same
    exact ((List.append_nil _).symm.trans same.symm)
  have member : .number old ∈ phrase.tokens :=
    mem_digitsOf_iff.mp (digits ▸ List.mem_append_right _ List.mem_cons_self)
  obtain ⟨value, found⟩ := Option.isSome_iff_exists.mp
    (Phrase.numbersFit reads.settled.valid old member)
  refine ⟨value, toInt_of_wordOfDigits? found, ?_⟩
  rw [Phrase.constants_formula, digits, List.getElem?_map,
    List.getElem?_append_right (Nat.le_refl _), Nat.sub_self, List.getElem?_cons_zero,
    Option.map_some, found]
  rfl

/-- How many numbers are among the first tokens of a text. -/
def numbersBefore (text : String) (index : Nat) : Nat :=
  (digitsOf ((TokenStream.ofText text).tokens.take index)).length

theorem parseFor_replaced {front back : List Char} {index : Nat} {formula : Formula}
    (formed : (Token.number literal).WellFormed) (strict : parser.options.rejectTrailing = true)
    (accepted : parser.parseFor owner text = .ok formula)
    (split : text.toList = front ++ old.toList ++ back)
    (given : (Lexer.ofText text).drain[index]? =
      some (.ok (.number old), byteSize (front ++ old.toList))) :
    (∃ value : Int64, value.toInt = Nat.ofDigitChars 10 old.toList 0 ∧
      formula.constants[numbersBefore text index]? = some value) ∧
    ReadsLiteral literal (formula.setConstant (numbersBefore text index))
      (parser.parseFor owner (String.ofList (front ++ literal.toList ++ back))) := by
  obtain ⟨before, behind, blanks, gap, rest, rfl, rfl, rfl, legible, blank, ended, tokens⟩ :=
    Lexer.exists_of_drain Token.noConfusion split given
  have nonBlank : text.toList.all isBlank = false := Bool.eq_false_iff.mpr fun allBlank => by
    rw [TokenStream.ofText, TokenStream.ofChars_blank allBlank] at tokens
    exact List.append_ne_nil_of_right_ne_nil _ (List.cons_ne_nil _ _) tokens.symm
  obtain ⟨phrase, left, reads, rfl, sound, whole⟩ := reads_of_parseFor nonBlank accepted
  obtain rfl := whole strict
  obtain rfl := ended (sound rfl)
  have within := reads.within_of_parseFor sound whole accepted
  rw [tokens] at reads
  rw [numbersBefore, tokens, List.take_left' (List.length_map _)]
  refine ⟨constants_of_reads reads owner, ?_⟩
  rw [List.append_nil] at legible ⊢
  rw [parseFor_of_ofText (by simp) (ofText_written_number formed legible blank), ← renumber_writeAt]
  refine readFormula_literal reads within ?_ literal
  have counts := reads.numbers_eq
  rw [Place.numbers, digitsOf_append, digitsOf_number, digitsOf_nil, List.length_append,
    List.length_cons, List.length_nil] at counts
  omega

end

/-- A run of digits is a number with the value that they write, if a word holds it, and a fault that
shows them all otherwise. So it is where they are the whole text, and where they are written in the
place of any number of a formula: they change the constant of that place and no other. -/
theorem parseFor_integer_literal (parser : Parser) (owner : Owner) {literal : String}
    (nonempty : literal.toList ≠ []) (digits : literal.toList.all Char.isDigit = true) :
    (0 < parser.options.maxDepth →
      ReadsLiteral literal .constant (parser.parseFor owner literal)) ∧
    ∀ (text : String) (formula : Formula) (front back : List Char) (old : String) (index : Nat),
      parser.options.rejectTrailing = true → parser.parseFor owner text = .ok formula →
      text.toList = front ++ old.toList ++ back →
      (Lexer.ofText text).drain[index]? =
        some (.ok (.number old), byteSize (front ++ old.toList)) →
      (∃ value : Int64, value.toInt = Nat.ofDigitChars 10 old.toList 0 ∧
        formula.constants[numbersBefore text index]? = some value) ∧
      ReadsLiteral literal (formula.setConstant (numbersBefore text index))
        (parser.parseFor owner (String.ofList (front ++ literal.toList ++ back))) :=
  ⟨parseFor_literal ⟨nonempty, digits⟩, fun _ _ _ _ _ _ strict accepted split given =>
    parseFor_replaced ⟨nonempty, digits⟩ strict accepted split given⟩

/-- In `1+2*3`, the second number may have leading zeros, but not a value that no word holds. -/
theorem parseFor_integer_literal_product :
    ({} : Parser).parseFor {} "0042" = .ok (.constant 42) ∧
    ({} : Parser).parseFor {} "1+0042*3" = .ok (.binary (.between .add) (.constant 1)
      (.binary (.between .multiply) (.constant 42) (.constant 3))) ∧
    ({} : Parser).parseFor {} "1+9223372036854775808*3" =
      .error (.invalidNumber "9223372036854775808") := by
  have spells : (Phrase.between .add (.number "1")
      (.between .multiply (.number "2") (.number "3"))).Spells "1+2*3" :=
    ⟨by decide, by decide, by decide +kernel⟩
  have accepted := parseFor_of_spells {} {} spells
  rw [if_pos (by decide)] at accepted
  have place : (Lexer.ofText "1+2*3").drain[2]? =
      some (.ok (.number "2"), byteSize (['1', '+'] ++ "2".toList)) := by decide +kernel
  have second : numbersBefore "1+2*3" 2 = 1 := by
    rw [numbersBefore, spells.stream]
    rfl
  have small := @parseFor_integer_literal {} {} "0042" (by decide) (by decide)
  have large := @parseFor_integer_literal {} {} "9223372036854775808" (by decide) (by decide)
  have replaced := small.2 "1+2*3" _ ['1', '+'] ['*', '3'] "2" 2 rfl accepted (by decide) place
  have refused := large.2 "1+2*3" _ ['1', '+'] ['*', '3'] "2" 2 rfl accepted (by decide) place
  rw [second] at replaced
  obtain ⟨value, written, alone⟩ := (small.1 (by decide)).value (by decide)
  obtain rfl : value = 42 := Int64.toInt_inj.mp written
  obtain ⟨value, written, inside⟩ := replaced.2.value (by decide)
  obtain rfl : value = 42 := Int64.toInt_inj.mp written
  exact ⟨alone, inside, refused.2.tooLarge (by decide)⟩

end TableFormula
