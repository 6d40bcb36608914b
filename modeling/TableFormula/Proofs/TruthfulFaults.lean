import TableFormula.Proofs.Completions
import TableFormula.Proofs.DepthLimit
import TableFormula.Proofs.TwoPhases

namespace TableFormula

open Text

/-! ### Faults of a text -/

section

variable {lenient : Bool} {options : Options} {parser : Parser} {owner : Owner} {text : String}
  {place part : Place} {tokens front later rest : List Token} {fault : ParseError} {found : Token}

theorem Refuses.found?_eq (h : Refuses lenient place tokens fault rest) :
    fault.found? = some (nextToken rest) ∨ fault.found? = none ∧ rest ≠ [] := by
  cases h with
  | number | unknownFunction => exact .inr ⟨rfl, List.cons_ne_nil _ _⟩
  | unexpected | reference | openCall | callComma | closeCall | group | conditionalMarker =>
    exact .inl rfl

/-- The place that refuses a token is a part of the one that fails. -/
theorem Fails.exists_refuses (h : Fails lenient place tokens fault rest) :
    ∃ part later, Refuses lenient part later fault rest ∧ later <:+ tokens := by
  induction h with
  | here refuses => exact ⟨_, _, refuses, List.suffix_rfl⟩
  | inside enters _ ih =>
    obtain ⟨part, later, refuses, suffix⟩ := ih
    obtain ⟨read, rfl, -⟩ := enters.reread
    exact ⟨part, later, refuses, suffix.trans (List.suffix_append _ _)⟩

theorem FailsWhole.found?_eq (h : FailsWhole options tokens fault rest) :
    fault.found? = some (nextToken rest) ∨ fault.found? = none ∧ rest ≠ [] := by
  cases h with
  | inside fails =>
    obtain ⟨part, later, refuses, -⟩ := fails.exists_refuses
    exact refuses.found?_eq
  | trailing => exact .inl rfl

theorem FailsWhole.found_eq (h : FailsWhole options tokens fault rest)
    (carried : fault.found? = some found) : found = nextToken rest := by
  rcases h.found?_eq with same | ⟨none, -⟩
  · exact Option.some.inj (carried.symm.trans same)
  · rw [none] at carried
    cases carried

/-- Where reading stops before the end of some tokens, the end is not what it refuses. -/
theorem found?_ne_endOfInput (clean : .endOfInput ∉ front) (stops : ¬parser.AsksBehind owner front)
    (failed : readFormula parser.options owner ({ tokens := front } : TokenStream) = .error fault) :
    fault.found? ≠ some .endOfInput := by
  intro carried
  -- The fault is the same with a number behind that fits in no word, which is never accepted.
  let large : Token := .number "9223372036854775808"
  have again : readFormula parser.options owner ({ tokens := front ++ [large] } : TokenStream) =
      .error fault := (readFormula_of_not_asksBehind stops (List.prefix_append _ _)).trans failed
  have clean : .endOfInput ∉ front ++ [large] := by simp [clean, large]
  obtain rfl | ⟨rest, fails⟩ := readFormula_error clean again
  · cases carried
  · obtain ⟨read, split, fit, -⟩ := fails.opens
    have ended : nextToken rest = .endOfInput := (fails.found_eq carried).symm
    cases rest with
    | cons next later =>
      refine clean (split ▸ List.mem_append_right read ?_)
      rw [← ended]
      exact List.mem_cons_self
    | nil =>
      rw [List.append_nil] at split
      have word := fit "9223372036854775808" (split ▸ List.mem_append_right front List.mem_cons_self)
      exact absurd word (by decide)

theorem nonBlank_of_error (failed : parser.parseFor owner text = .error fault) :
    text.toList.all isBlank = false := by
  refine Bool.eq_false_iff.mpr fun blank => ?_
  rw [parseFor_blank _ _ blank] at failed
  cases failed

/-- The fault of a text is lexical, or a token was refused, or the limit of depth was met. -/
theorem parseFor_error (failed : parser.parseFor owner text = .error fault) :
    (∃ lexical, fault = .lexical lexical) ∨ fault = .tooDeep parser.options.maxDepth ∨
      ∃ rest, FailsWhole parser.options (TokenStream.ofText text).tokens fault rest ∧
        (rest = [] → (TokenStream.ofText text).fault = none) := by
  have clean := TokenStream.endOfInput_notMem 0 (trim text.toList)
  rw [parseFor_eq_readFormula _ _ (nonBlank_of_error failed)] at failed
  rw [TokenStream.ofText_tokens, TokenStream.ofText_fault]
  generalize TokenStream.ofChars 0 (trim text.toList) = stream at failed clean ⊢
  obtain ⟨tokens, ending⟩ := stream
  cases ending with
  | none =>
    refine .inr ((readFormula_error clean failed).imp_right fun ⟨rest, fails⟩ => ?_)
    exact ⟨rest, fails, fun _ => rfl⟩
  | some lexical =>
    by_cases asks : parser.AsksBehind owner tokens
    · rw [asks lexical] at failed
      cases failed
      exact .inl ⟨lexical, rfl⟩
    · have alone := (readFormula_of_not_asksBehind asks (List.prefix_refl tokens)).symm.trans failed
      refine .inr ((readFormula_error clean alone).imp_right fun ⟨rest, fails⟩ => ?_)
      refine ⟨rest, fails, fun none => ?_⟩
      subst none
      rcases fails.found?_eq with ended | ⟨-, more⟩
      · exact absurd ended (found?_ne_endOfInput clean asks alone)
      · exact absurd rfl more

/-- A text is reported with the token that is refused in it. -/
theorem parseFor_of_failsWhole (nonBlank : text.toList.all isBlank = false)
    (h : FailsWhole parser.options (TokenStream.ofText text).tokens fault rest)
    (sound : rest = [] → (TokenStream.ofText text).fault = none)
    (few : (TokenStream.ofText text).tokens.length < parser.options.maxDepth) :
    parser.parseFor owner text = .error fault := by
  rw [TokenStream.ofText_tokens] at h few
  rw [TokenStream.ofText_fault] at sound
  rw [parseFor_eq_readFormula _ _ nonBlank]
  refine (h.run owner (TokenStream.endOfInput_notMem _ _) sound).resolve_right ?_
  exact readFormula_ne_tooDeep few _

/-! ### The token that was found -/

theorem FailsWhole.opensFormula {read : List Token}
    (h : FailsWhole options (read ++ rest) fault rest)
    (wellFormed : ∀ token ∈ read ++ rest, token.WellFormed) : OpensFormula read := by
  obtain ⟨accepted, split, fit, completes⟩ := h.opens
  obtain rfl := List.append_cancel_right split
  exact opensFormula_of_completes
    (fun token member => wellFormed token (List.mem_append_left rest member)) fit completes

/-- No formula goes on with the token that was refused. -/
theorem FailsWhole.not_opensFormula {read : List Token}
    (h : FailsWhole options (read ++ rest) fault rest) :
    ¬OpensFormula (read ++ [nextToken rest]) := by
  rintro ⟨phrase, other, spells, more, same⟩
  obtain ⟨accepted, split, again⟩ := h.reread
  obtain rfl := List.append_cancel_right split
  rw [List.append_assoc, List.singleton_append] at same
  cases rest with
  | nil =>
    have member : .endOfInput ∈ phrase.tokens := by
      rw [← same]
      exact List.mem_append_right read List.mem_cons_self
    exact spells.wellFormed _ member
  | cons next later =>
    have fails := again (next :: more) rfl
    rw [nextToken_cons] at same
    rw [same] at fails
    exact fails.not_reads (reads_tokens spells.valid spells.wellGrouped)

/-- A parser comes to the token that it refuses. -/
theorem FailsWhole.asksBehind {read : List Token} {ending : Option LexFault}
    (h : FailsWhole parser.options (read ++ rest) fault rest) (carried : fault.found? = some found)
    (wellFormed : ∀ token ∈ read ++ rest, token.WellFormed)
    (failed : readFormula parser.options owner (⟨read ++ rest, ending⟩ : TokenStream) =
      .error fault) : parser.AsksBehind owner read := by
  refine Classical.byContradiction fun stops => ?_
  have clean : .endOfInput ∉ read := fun bad =>
    wellFormed .endOfInput (List.mem_append_left rest bad)
  have alone := (readFormula_of_not_asksBehind stops (List.prefix_append read rest)).symm.trans failed
  obtain rfl | ⟨earlier, fails⟩ := readFormula_error clean alone
  · cases carried
  · -- Otherwise a token in front of it is refused, with which a formula goes on.
    have notEnd := found?_ne_endOfInput clean stops alone
    obtain rfl := fails.found_eq carried
    obtain ⟨later, same⟩ := eq_cons_of_nextToken rfl fun ended => notEnd (carried.trans (ended ▸ rfl))
    obtain ⟨front, split, -⟩ := fails.reread
    rw [split] at fails
    refine fails.not_opensFormula ((h.opensFormula wellFormed).front_of ⟨later, ?_⟩)
    rw [List.append_assoc, List.singleton_append, ← same, ← split]

theorem token_of_append {read : List Token} {ending : Option LexFault}
    (sound : rest = [] → ending = none) :
    TokenStream.token ⟨read ++ rest, ending⟩ read.length = .ok (nextToken rest) := by
  unfold TokenStream.token
  dsimp only
  rw [List.getElem?_append_right (Nat.le_refl _), Nat.sub_self]
  cases rest with
  | cons => rfl
  | nil =>
    rw [sound rfl]
    rfl

/-! ### The contents of a fault -/

/-- The token behind a complete formula that the fault carries. -/
def ParseError.behindFormula? : ParseError → Option Token
  | trailingInput found | unclosedParenthesis found | expected .conditionalMarker found
  | expected .callComma found | expected .closeCall found => some found
  | _ => none

/-- What a fault of a text says about its tokens. -/
structure ParseError.Truthful (parser : Parser) (owner : Owner) (stream : TokenStream)
    (fault : ParseError) : Prop where
  value : ∀ found, fault ≠ .notAValue found
  limit : ∀ limit, fault = .tooDeep limit → limit = parser.options.maxDepth
  number : ∀ digits, fault = .invalidNumber digits → .number digits ∈ stream.tokens ∧
    0x7FFFFFFFFFFFFFFF < Nat.ofDigitChars 10 digits.toList 0
  function : ∀ name, fault = .unknownFunction name →
    isPropertyKind name = false ∧ Builtin.ofSymbol? name = none ∧
      ∃ before behind, stream.tokens = before ++ .name name :: .symbol "(" :: behind
  operand : ∀ found, fault = .unexpectedToken found → (∀ digits, found ≠ .number digits) ∧
    (∀ name, found ≠ .name name) ∧ found ∉ [.symbol "(", .symbol "+", .symbol "-"]
  trailing : ∀ found, fault = .trailingInput found → found ≠ .endOfInput
  unclosed : ∀ found, fault = .unclosedParenthesis found → found ≠ .symbol ")" ∧
    (found = .endOfInput → parser.options.allowUnclosedParens = false)
  behind : ∀ found, fault.behindFormula? = some found →
    (∀ op : InfixOp, found ≠ .symbol op.symbol) ∧ found ≠ .symbol "?"
  expected : ∀ what found, fault = .expected what found → what.accepts found = false
  /-- The token found is the next one of the text where no formula goes on. -/
  next : ∀ found, fault.found? = some found → ∃ accepted, accepted <+: stream.tokens ∧
    stream.token accepted.length = .ok found ∧ parser.AsksBehind owner accepted ∧
    OpensFormula accepted ∧ ¬OpensFormula (accepted ++ [found])

theorem Reads.next_ne {phrase : Phrase} (h : Reads lenient (.formula 0) tokens phrase rest) :
    (∀ op : InfixOp, nextToken rest ≠ .symbol op.symbol) ∧ nextToken rest ≠ .symbol "?" := by
  obtain ⟨-, -, declines⟩ := h.done trivial
  obtain ⟨noInfix, noConditional⟩ := declines_iff.mp declines
  exact ⟨fun op same => absurd (noInfix op same) (Nat.not_lt_zero _),
    fun same => Nat.lt_irrefl 0 (noConditional same)⟩

theorem of_firstMissing {what : Expectation} {expected : List Expectation}
    (missing : firstMissing expected tokens = some (what, rest)) :
    what ∈ expected ∧ what.accepts (nextToken rest) = false := by
  induction expected generalizing tokens with
  | nil => cases missing
  | cons next expected ih =>
    obtain ⟨token, later, rfl, accepted⟩ | refused := next.accepts_cases tokens
    · rw [firstMissing_accepted accepted] at missing
      exact (ih missing).imp_left (List.mem_cons_of_mem next)
    · rw [firstMissing_refused refused] at missing
      cases missing
      exact ⟨List.mem_cons_self, refused⟩

namespace FailsWhole

variable (h : FailsWhole options tokens fault rest)
include h

theorem refuses (inside : ∀ found, fault ≠ .trailingInput found) :
    ∃ part later, Refuses options.allowUnclosedParens part later fault rest ∧ later <:+ tokens := by
  cases h with
  | inside fails => exact fails.exists_refuses
  | @trailing _ next _ _ _ => exact absurd rfl (inside next)

theorem number {digits : String} (same : fault = .invalidNumber digits) :
    .number digits ∈ tokens ∧ 0x7FFFFFFFFFFFFFFF < Nat.ofDigitChars 10 digits.toList 0 := by
  subst same
  obtain ⟨part, later, refuses, suffix⟩ := h.refuses (by simp)
  cases refuses with
  | number tooLarge =>
    refine ⟨suffix.subset List.mem_cons_self, Nat.lt_of_not_le fun fits => ?_⟩
    have word := wordOfDigits?_isSome_iff.mpr (Nat.lt_succ_of_le fits)
    rw [tooLarge] at word
    cases word

theorem function {name : String} (same : fault = .unknownFunction name) :
    isPropertyKind name = false ∧ Builtin.ofSymbol? name = none ∧
      ∃ before behind, tokens = before ++ .name name :: .symbol "(" :: behind := by
  subst same
  obtain ⟨part, later, refuses, before, split⟩ := h.refuses (by simp)
  cases refuses with
  | unknownFunction free =>
    obtain ⟨noKind, noFunction⟩ := Bool.or_eq_false_iff.mp free
    exact ⟨noKind, Option.not_isSome_iff_eq_none.mp (Bool.eq_false_iff.mp noFunction), before, _,
      split.symm⟩

theorem operand (same : fault = .unexpectedToken found) : (∀ digits, found ≠ .number digits) ∧
    (∀ name, found ≠ .name name) ∧ found ∉ [.symbol "(", .symbol "+", .symbol "-"] := by
  subst same
  obtain ⟨part, later, refuses, -⟩ := h.refuses (by simp)
  cases refuses with
  | unexpected refused =>
    refine ⟨fun digits same => ?_, fun name same => ?_, fun member => ?_⟩
    · rw [same] at refused
      cases refused
    · rw [same] at refused
      cases refused
    · have begins : ∀ token ∈ [Token.symbol "(", .symbol "+", .symbol "-"],
          token.beginsOperand = true := by decide
      rw [begins _ member] at refused
      cases refused

theorem notAtEnd (clean : .endOfInput ∉ tokens) (same : fault = .trailingInput found) :
    found ≠ .endOfInput := by
  subst same
  cases h with
  | inside fails =>
    obtain ⟨part, later, refuses, -⟩ := fails.exists_refuses
    cases refuses
  | trailing _ reads =>
    rintro rfl
    exact clean (reads.suffix.subset List.mem_cons_self)

theorem unclosed (same : fault = .unclosedParenthesis found) : found ≠ .symbol ")" ∧
    (found = .endOfInput → options.allowUnclosedParens = false) := by
  subst same
  obtain ⟨part, later, refuses, -⟩ := h.refuses (by simp)
  cases refuses with
  | group _ refused unclosed => exact ⟨refused, unclosed⟩

theorem behind (carried : fault.behindFormula? = some found) :
    (∀ op : InfixOp, found ≠ .symbol op.symbol) ∧ found ≠ .symbol "?" := by
  cases h with
  | trailing _ reads =>
    cases carried
    exact reads.next_ne
  | inside fails =>
    obtain ⟨part, later, refuses, -⟩ := fails.exists_refuses
    cases refuses with
    | callComma _ reads | closeCall _ _ reads | group reads | conditionalMarker _ reads =>
      cases carried
      exact reads.next_ne
    | reference _ missing =>
      have inside : ∀ what ∈ Expectation.ofReference,
          (ParseError.expected what (nextToken rest)).behindFormula? = none := by
        simp [Expectation.ofReference, ParseError.behindFormula?]
      rw [inside _ (of_firstMissing missing).1] at carried
      cases carried
    | unexpected | number | unknownFunction | openCall => cases carried

theorem expected {what : Expectation} (same : fault = .expected what found) :
    what.accepts found = false := by
  subst same
  obtain ⟨part, later, refuses, -⟩ := h.refuses (by simp)
  cases refuses with
  | reference _ missing => exact (of_firstMissing missing).2
  | openCall _ refused | callComma _ _ refused | closeCall _ _ _ refused
  | conditionalMarker _ _ refused =>
    exact Token.isSymbol_eq_false_iff.mpr refused

/-- No token is refused for a lexical fault or for the limit of depth. -/
theorem syntactic : (∀ lexical, fault ≠ .lexical lexical) ∧ (∀ limit, fault ≠ .tooDeep limit) ∧
    ∀ found, fault ≠ .notAValue found := by
  cases h with
  | trailing => simp
  | inside fails =>
    obtain ⟨part, later, refuses, -⟩ := fails.exists_refuses
    cases refuses <;> simp

end FailsWhole

/-- The token found is behind the longest front of the tokens with which some formula begins. -/
theorem FailsWhole.next {stream : TokenStream} {ending : Option LexFault}
    (h : FailsWhole parser.options stream.tokens fault rest)
    (sound : rest = [] → stream.fault = none)
    (wellFormed : ∀ token ∈ stream.tokens, token.WellFormed)
    (failed : readFormula parser.options owner (⟨stream.tokens, ending⟩ : TokenStream) =
      .error fault) (carried : fault.found? = some found) :
    ∃ accepted, accepted <+: stream.tokens ∧ stream.token accepted.length = .ok found ∧
      parser.AsksBehind owner accepted ∧ OpensFormula accepted ∧
      ¬OpensFormula (accepted ++ [found]) := by
  obtain ⟨tokens, fault?⟩ := stream
  obtain ⟨read, rfl, -⟩ := h.reread
  obtain rfl := h.found_eq carried
  exact ⟨read, List.prefix_append read rest, token_of_append sound,
    h.asksBehind carried wellFormed failed, h.opensFormula wellFormed, h.not_opensFormula⟩

/-- The fault of a text is truthful: it names what stands there, and the token that it carries is the
first with which no formula goes on. -/
theorem parseFor_truthful (failed : parser.parseFor owner text = .error fault) :
    fault.Truthful parser owner (TokenStream.ofText text) := by
  obtain ⟨lexical, rfl⟩ | rfl | ⟨rest, fails, sound⟩ := parseFor_error failed
  · constructor <;> simp [ParseError.found?, ParseError.behindFormula?]
  · constructor <;> simp [ParseError.found?, ParseError.behindFormula?]
  · have wellFormed : ∀ token ∈ (TokenStream.ofText text).tokens, token.WellFormed :=
      TokenStream.wellFormed_of_mem
    have clean : .endOfInput ∉ (TokenStream.ofText text).tokens := fun bad => wellFormed _ bad
    have read : readFormula parser.options owner (⟨(TokenStream.ofText text).tokens,
        (TokenStream.ofChars 0 (trim text.toList)).fault⟩ : TokenStream) = .error fault := by
      rw [TokenStream.ofText_tokens]
      exact (parseFor_eq_readFormula parser owner (nonBlank_of_error failed)).symm.trans failed
    exact
      { value := fails.syntactic.2.2
        limit := fun limit same => absurd same (fails.syntactic.2.1 limit)
        number := fun _ => fails.number
        function := fun _ => fails.function
        operand := fun _ => fails.operand
        trailing := fun _ => fails.notAtEnd clean
        unclosed := fun _ => fails.unclosed
        behind := fun _ => fails.behind
        expected := fun _ _ => fails.expected
        next := fun _ => fails.next sound wellFormed read }

end

/-- In `min(1` and a token that does not go on with `1`, the comma is missing. -/
theorem parseFor_min_one (text : String) (rest : List Token)
    (stream : TokenStream.ofText text =
      { tokens := .name "min" :: .symbol "(" :: .number "1" :: rest })
    (few : rest.length < 125) (other : nextToken rest ≠ .symbol ",")
    (declines : Declines 0 (nextToken rest)) :
    ({} : Parser).parseFor {} text = .error (.expected .callComma (nextToken rest)) := by
  have nonBlank : text.toList.all isBlank = false := by
    refine Bool.eq_false_iff.mpr fun blank => ?_
    rw [TokenStream.ofText, TokenStream.ofChars_blank blank] at stream
    cases stream
  have called : Builtin.ofSymbol? "min" = some .min := by decide
  have refused : FailsWhole {} (TokenStream.ofText text).tokens
      (.expected .callComma (nextToken rest)) rest := by
    rw [stream]
    exact .inside (.inside .operand (.here (.callComma called (.formula (.number (by decide))
      (.infixEnd declines.1) (.conditionalEnd declines.2)) other)))
  refine parseFor_of_failsWhole nonBlank refused (fun _ => by rw [stream]) ?_
  rw [stream]
  exact Nat.add_lt_add_right few 3

/-- The fault of `min(1)` carries the parenthesis that stands where the comma should. -/
theorem parseFor_truthful_comma :
    (ParseError.expected .callComma (.symbol ")")).Truthful {} {} (TokenStream.ofText "min(1)") :=
  parseFor_truthful (parseFor_min_one "min(1)" [.symbol ")"] (by decide +kernel) (by decide)
    (by decide) ⟨rfl, rfl⟩)

end TableFormula
