import TableFormula.Proofs.DepthLimit
import TableFormula.Proofs.TruthfulFaults

namespace TableFormula

open Text

/-! ### Texts with more behind them -/

/-- Whether a text is empty or begins with a blank, so that it continues no token in front. -/
def BeginsBlank (text : String) : Prop := ∀ c ∈ text.toList.head?, isBlank c = true

theorem BeginsBlank.stops {text : String} (h : BeginsBlank text) :
    ∀ c ∈ text.toList.head?, isNameChar c = false ∧ c ≠ '=' :=
  fun c member => stops_of_isBlank (h c member)

theorem TokenStream.tokens_ofChars_append {position : Nat} (cs : List Char) {more : List Char}
    (stops : ∀ c ∈ more.head?, isNameChar c = false ∧ c ≠ '=') :
    (ofChars position cs).tokens <+: (ofChars position (cs ++ more)).tokens := by
  obtain ⟨tokens, gap, back, spelled, legible, -, same, -⟩ := exists_legible position cs
  have whole : tokens.written (gap ++ back ++ more) = cs ++ more := by
    rw [SpacedTokens.written_eq_append, ← List.append_assoc, ← SpacedTokens.written_eq_append,
      spelled]
  rw [← whole, (legible.append stops).ofChars, ← same]
  exact List.prefix_append _ _

/-- A fault in a text, but for an open string, is that of each text that begins with it. -/
theorem TokenStream.ofChars_append_fault {position : Nat} {cs more : List Char} {fault : LexFault}
    (stops : ∀ c ∈ more.head?, isNameChar c = false ∧ c ≠ '=')
    (ends : (ofChars position cs).fault = some fault) (closed : ¬fault.OpenString) :
    ofChars position (cs ++ more) = ofChars position cs := by
  have quiet : ∀ other ∈ (ofChars position cs).fault, other.OpenString → Token.quoteMark ∉ more := by
    intro other member opened
    rw [ends] at member
    cases member
    exact absurd opened closed
  rw [ofChars_append stops quiet]
  unfold append
  rw [ends]

section

variable {parser : Parser} {owner : Owner} {text : String} {fault : ParseError}

theorem TokenStream.ofFormula_append (nonBlank : text.toList.all isBlank = false) (more : String) :
    ofFormula text = ofChars 0 (text.toList.dropWhile isBlank) ∧
      ofFormula (text ++ more) = ofChars 0 (text.toList.dropWhile isBlank ++ more.toList) := by
  have some : text.toList.dropWhile isBlank ≠ [] := by
    intro none
    rw [List.all_eq_true.mpr (List.dropWhile_eq_nil_iff.mp none)] at nonBlank
    cases nonBlank
  refine ⟨ofChars_trim_eq 0 _, (ofChars_trim_eq 0 _).trans ?_⟩
  rw [String.toList_append, (blanks_append some more.toList).2]

theorem parseFor_append (nonBlank : text.toList.all isBlank = false) (more : String) :
    parser.parseFor owner (text ++ more) =
      readFormula parser.options owner (TokenStream.ofFormula (text ++ more)) := by
  refine parseFor_eq_readFormula parser owner ?_
  rw [String.toList_append, List.all_append, nonBlank, Bool.false_and]

/-! ### Faults that stay -/

namespace ParseError

/-- Whether the fault is no matter of the end of the text, of an open string or of the limit of
depth. -/
def Decided : ParseError → Prop
  | lexical fault => ¬fault.OpenString
  | expected _ found | unclosedParenthesis found | unexpectedToken found | notAValue found
  | trailingInput found => found ≠ .endOfInput
  | invalidNumber _ | unknownFunction _ => True
  | tooDeep _ => False

theorem Decided.found?_ne (h : fault.Decided) : fault.found? ≠ some .endOfInput := by
  cases fault with
  | lexical | invalidNumber | unknownFunction | tooDeep => exact nofun
  | expected | unclosedParenthesis | unexpectedToken | notAValue | trailingInput =>
    exact fun same => h (Option.some.inj same)

end ParseError

/-- A token that was refused is refused whatever stands behind it. -/
theorem FailsWhole.not_asksBehind {tokens rest : List Token}
    (h : FailsWhole parser.options tokens fault rest) (clean : .endOfInput ∉ tokens)
    (more : rest ≠ []) : ¬parser.AsksBehind owner tokens := by
  intro asks
  let behind : LexFault := .unterminatedString 0
  have stops : StopsWith parser.options fault
      (readFormula parser.options owner (⟨tokens, some behind⟩ : TokenStream)) :=
    h.run owner clean fun none => absurd none more
  rw [asks behind] at stops
  rcases stops with same | same
  · exact h.syntactic.1 behind (Except.error.inj same).symm
  · cases same

theorem parseFor_append_of_decided (failed : parser.parseFor owner text = .error fault)
    (decided : fault.Decided) {more : String} (blank : BeginsBlank more) :
    parser.parseFor owner (text ++ more) = .error fault := by
  have nonBlank := nonBlank_of_error failed
  obtain ⟨same, longer⟩ := TokenStream.ofFormula_append nonBlank more
  rw [parseFor_append nonBlank, longer]
  have read : readFormula parser.options owner
      (TokenStream.ofChars 0 (text.toList.dropWhile isBlank)) = .error fault := by
    rw [← same]
    exact (parseFor_eq_readFormula parser owner nonBlank).symm.trans failed
  obtain ⟨lexical, rfl⟩ | rfl | ⟨rest, fails, -⟩ := parseFor_error failed
  · obtain ⟨ends, -⟩ := readFormula_eq_lexical_iff.mp read
    rw [TokenStream.ofChars_append_fault blank.stops ends decided]
    exact read
  · exact decided.elim
  · have tokens : (TokenStream.ofText text).tokens =
        (TokenStream.ofChars 0 (text.toList.dropWhile isBlank)).tokens := by
      rw [TokenStream.ofText_tokens, TokenStream.ofChars_trim_eq]
    rw [tokens] at fails
    have more : rest ≠ [] := by
      rintro rfl
      rcases fails.found?_eq with ended | ⟨-, some⟩
      · exact decided.found?_ne ended
      · exact some rfl
    have stops : ¬parser.AsksBehind owner _ :=
      fails.not_asksBehind (TokenStream.endOfInput_notMem _ _) more
    rw [← read, readFormula_of_not_asksBehind stops (List.prefix_refl _),
      readFormula_of_not_asksBehind stops (TokenStream.tokens_ofChars_append _ blank.stops)]

/-! ### Texts that can be completed -/

/-- A text that holds the tokens, each behind a space, and begins with one. -/
def textBehind (tokens : List Token) : String :=
  String.ofList (' ' :: (withSpaces tokens).written [])

theorem textBehind_stops (tokens : List Token) :
    ∀ c ∈ (textBehind tokens).toList.head?, isNameChar c = false ∧ c ≠ '=' := by
  rw [textBehind, String.toList_ofList]
  rintro _ ⟨⟩
  exact stops_of_isBlank (by decide)

theorem TokenStream.ofText_textBehind {tokens more : List Token}
    (whole : ofText text = { tokens }) (wellFormed : ∀ token ∈ more, token.WellFormed) :
    ofText (text ++ textBehind more) = { tokens := tokens ++ more } := by
  unfold ofText at whole ⊢
  have quiet : ∀ fault ∈ (ofChars 0 text.toList).fault, fault.OpenString →
      Token.quoteMark ∉ (textBehind more).toList := by
    rw [whole]
    exact fun _ => nofun
  have behind : ∀ position, ofChars position (textBehind more).toList = { tokens := more } := by
    intro position
    rw [textBehind, String.toList_ofList, ← List.singleton_append,
      ofChars_blank_append (by decide), ofChars_withSpaces wellFormed]
  rw [String.toList_append, ofChars_append (textBehind_stops more) quiet, whole, behind]
  rfl

/-- Where only the end of a text was refused, a formula begins with the text. -/
theorem exists_completion (failed : parser.parseFor owner text = .error fault)
    (ended : fault.found? = some .endOfInput) : ∃ (phrase : Phrase) (more : List Token),
      phrase.Spells (text ++ textBehind more) := by
  obtain ⟨lexical, rfl⟩ | rfl | ⟨rest, fails, sound⟩ := parseFor_error failed
  · cases ended
  · cases ended
  · have proper : ∀ token ∈ (TokenStream.ofText text).tokens, token.WellFormed :=
      TokenStream.wellFormed_of_mem
    obtain ⟨read, split, fit, completes⟩ := fails.opens
    have next : nextToken rest = .endOfInput := (fails.found_eq ended).symm
    cases rest with
    | cons token later =>
      refine absurd (proper .endOfInput ?_) id
      rw [split, ← next]
      exact List.mem_append_right read List.mem_cons_self
    | nil =>
      rw [List.append_nil] at split
      subst split
      obtain ⟨phrase, more, few, valid, grouped, same⟩ := exists_phrase_of_completes fit completes
      have whole : TokenStream.ofText text = { tokens := (TokenStream.ofText text).tokens } :=
        congrArg (TokenStream.mk _) (sound rfl)
      refine ⟨phrase, more, valid, grouped, ?_⟩
      rw [TokenStream.ofText_textBehind whole
        fun token member => wellFormed_of_mem_fillers token (few token member), same]

/-- A fault is found at the earliest token: either no text behind it changes it, or the text goes on
to a formula. -/
theorem parseFor_earliest (failed : parser.parseFor owner text = .error fault) :
    (fault.Decided → ∀ more, BeginsBlank more →
      parser.parseFor owner (text ++ more) = .error fault) ∧
    (fault.found? = some .endOfInput → ∃ more formula, more ≠ "" ∧ BeginsBlank more ∧
      ∀ limit, (text ++ more).utf8ByteSize ≤ limit →
        (parser.limitedTo limit).parseFor owner (text ++ more) = .ok formula) := by
  refine ⟨fun decided more blank => parseFor_append_of_decided failed decided blank, fun ended => ?_⟩
  obtain ⟨phrase, more, spells⟩ := exists_completion failed ended
  refine ⟨textBehind more, phrase.formula owner, ?_, ?_, fun limit long => ?_⟩
  · intro empty
    have none := congrArg String.toList empty
    rw [textBehind, String.toList_ofList] at none
    cases none
  · rw [BeginsBlank, textBehind, String.toList_ofList]
    rintro _ ⟨⟩
    decide
  · rw [parseFor_of_spells (parser.limitedTo limit) owner spells]
    exact if_pos (spells.within owner long)

end

/-- Whatever stands behind `min(1)`, it is no call; `min(1` goes on to one. -/
theorem parseFor_earliest_comma :
    ({} : Parser).parseFor {} "min(1) , 2)" = .error (.expected .callComma (.symbol ")")) ∧
      ∃ more formula, ∀ limit, ("min(1" ++ more).utf8ByteSize ≤ limit →
        (({} : Parser).limitedTo limit).parseFor {} ("min(1" ++ more) = .ok formula := by
  have closed : ({} : Parser).parseFor {} "min(1)" = .error (.expected .callComma (.symbol ")")) :=
    parseFor_min_one "min(1)" [.symbol ")"] (by decide +kernel) (by decide) (by decide) ⟨rfl, rfl⟩
  have ended : ({} : Parser).parseFor {} "min(1" = .error (.expected .callComma .endOfInput) :=
    parseFor_min_one "min(1" [] (by decide +kernel) (by decide) (by decide) ⟨rfl, rfl⟩
  have blank : BeginsBlank " , 2)" := by
    rintro _ ⟨⟩
    decide
  obtain ⟨more, formula, -, -, accepted⟩ := (parseFor_earliest ended).2 rfl
  exact ⟨(parseFor_earliest closed).1 (by simp [ParseError.Decided]) " , 2)" blank, more, formula,
    accepted⟩

end TableFormula
