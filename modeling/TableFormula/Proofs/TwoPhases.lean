import TableFormula.Proofs.Layouts
import TableFormula.Proofs.WholeFormula

namespace TableFormula

open Text

/-- The tokens of a formula's text, without the blanks around it. -/
def TokenStream.ofFormula (text : String) : TokenStream := ofChars 0 (trim text.toList)

namespace Parser

/-- The formula in tokens that were all read beforehand. No tokens are the formula zero. -/
def parseTokens (parser : Parser) (owner : Owner) (stream : TokenStream) :
    Except ParseError Formula :=
  if stream = { tokens := [] } then .ok .zero else readFormula parser.options owner stream

/-- Whether a formula is read up to the end of the tokens: a fault behind them is met, whichever it
is. -/
def AsksBehind (parser : Parser) (owner : Owner) (tokens : List Token) : Prop :=
  ∀ fault, readFormula parser.options owner (⟨tokens, some fault⟩ : TokenStream) =
    .error (.lexical fault)

end Parser

/-! ### Streams with the same tokens -/

section

variable {parser : Parser} {owner : Owner}

theorem TokenStream.ofFormula_eq_empty_iff {text : String} :
    ofFormula text = { tokens := [] } ↔ text.toList.all isBlank = true := by
  rw [ofFormula, ← ofText_eq_iff, ofText, ofChars_eq_empty_iff]

theorem parseFor_eq_parseTokens (parser : Parser) (owner : Owner) (text : String) :
    parser.parseFor owner text = parser.parseTokens owner (TokenStream.ofFormula text) := by
  unfold Parser.parseTokens
  cases blank : text.toList.all isBlank with
  | true => rw [parseFor_blank _ _ blank, if_pos (TokenStream.ofFormula_eq_empty_iff.mpr blank)]
  | false =>
    have nonempty : TokenStream.ofFormula text ≠ { tokens := [] } := fun empty =>
      Bool.false_ne_true (blank.symm.trans (TokenStream.ofFormula_eq_empty_iff.mp empty))
    rw [parseFor_eq_readFormula _ _ blank, if_neg nonempty, TokenStream.ofFormula]

theorem parseTokens_eq_readFormula {tokens : List Token} (some : tokens ≠ []) :
    parser.parseTokens owner { tokens } =
      readFormula parser.options owner ({ tokens } : TokenStream) :=
  if_neg fun none => some (congrArg TokenStream.tokens none)

theorem parseFor_of_ofText {text : String} {tokens : List Token} (some : tokens ≠ [])
    (stream : TokenStream.ofText text = { tokens }) :
    parser.parseFor owner text = readFormula parser.options owner ({ tokens } : TokenStream) := by
  rw [parseFor_eq_parseTokens, TokenStream.ofFormula, TokenStream.ofText_eq_iff.mp stream,
    parseTokens_eq_readFormula some]

namespace TokenStream

/-- Whether two streams have the same tokens, and faults that are related if any. -/
structure Alike (faults : LexFault → LexFault → Prop) (a b : TokenStream) : Prop where
  tokens : a.tokens = b.tokens
  fault : Option.Rel faults a.fault b.fault

theorem look_alike {faults : LexFault → LexFault → Prop} {a b : TokenStream}
    (alike : a.Alike faults b) :
    Refines (fun _ => False) faults (LookaheadAlike (Alike faults)) a.look b.look := by
  obtain ⟨tokens, fault⟩ := a
  obtain ⟨_, fault'⟩ := b
  obtain ⟨rfl, related⟩ := alike
  cases tokens with
  | cons token tokens => exact .ok ⟨rfl, ⟨rfl, related⟩, ⟨rfl, related⟩⟩
  | nil =>
    cases related with
    | none => exact .ok ⟨rfl, ⟨rfl, .none⟩, ⟨rfl, .none⟩⟩
    | some related => exact .error related

theorem Alike.outcomes {faults : LexFault → LexFault → Prop} {a b : TokenStream}
    (alike : a.Alike faults b) (options : Options) (owner : Owner) :
    (∃ fault fault', faults fault fault' ∧
        readFormula options owner a = .error (.lexical fault) ∧
        readFormula options owner b = .error (.lexical fault')) ∨
      readFormula options owner a = readFormula options owner b ∧
        ∀ fault, readFormula options owner a ≠ .error (.lexical fault) := by
  have agrees := readFormula_agrees options owner look_alike alike
  exact agrees.lexical_or_eq.resolve_left fun ⟨_, broken, _⟩ => broken

/-! ### Streams that begin alike -/

/-- Whether the first of two streams breaks off where the second may go on. -/
structure Cut (fault : LexFault) (a b : TokenStream) : Prop where
  fault : a.fault = some fault
  tokens : a.tokens <+: b.tokens

theorem look_cut {fault : LexFault} {a b : TokenStream} (cut : a.Cut fault b) :
    Refines (· = fault) (fun _ _ => False) (LookaheadAlike (Cut fault)) a.look b.look := by
  obtain ⟨tokens, _⟩ := a
  obtain ⟨_, fault'⟩ := b
  obtain ⟨rfl, more, rfl⟩ := cut
  cases tokens with
  | nil => exact .escaped _ rfl
  | cons token tokens =>
    have later : tokens <+: tokens ++ more := List.prefix_append tokens more
    exact .ok ⟨rfl, ⟨rfl, List.prefix_append (token :: tokens) more⟩, ⟨rfl, later⟩⟩

theorem Cut.outcomes {fault : LexFault} {a b : TokenStream} (cut : a.Cut fault b)
    (options : Options) (owner : Owner) :
    readFormula options owner a = .error (.lexical fault) ∨
      readFormula options owner a = readFormula options owner b := by
  have agrees := readFormula_agrees options owner look_cut cut
  obtain ⟨_, rfl, met⟩ | ⟨_, _, never, _⟩ | ⟨same, _⟩ := agrees.lexical_or_eq
  · exact .inl met
  · exact never.elim
  · exact .inr same

end TokenStream

/-! ### How far a formula is read -/

theorem readFormula_of_not_asksBehind {front : List Token} (stops : ¬parser.AsksBehind owner front)
    {stream : TokenStream} (begins : front <+: stream.tokens) :
    readFormula parser.options owner stream =
      readFormula parser.options owner ({ tokens := front } : TokenStream) := by
  obtain ⟨fault, unmet⟩ := Classical.not_forall.mp stops
  have same : ∀ stream : TokenStream, front <+: stream.tokens →
      readFormula parser.options owner (⟨front, some fault⟩ : TokenStream) =
        readFormula parser.options owner stream := fun stream begins =>
    (TokenStream.Cut.outcomes ⟨rfl, begins⟩ parser.options owner).resolve_left unmet
  exact (same stream begins).symm.trans (same { tokens := front } (List.prefix_refl front))

theorem readFormula_eq_lexical_iff {stream : TokenStream} {fault : LexFault} :
    readFormula parser.options owner stream = .error (.lexical fault) ↔
      stream.fault = some fault ∧ parser.AsksBehind owner stream.tokens := by
  obtain ⟨tokens, found⟩ := stream
  constructor
  · intro met
    have own : found = some fault := by
      have alike : TokenStream.Alike (fun fault _ => found = some fault) ⟨tokens, found⟩
          ⟨tokens, found⟩ := by
        refine ⟨rfl, ?_⟩
        cases found with
        | none => exact .none
        | some fault => exact .some rfl
      obtain ⟨_, _, own, reported, _⟩ | ⟨_, never⟩ := alike.outcomes parser.options owner
      · rw [met] at reported
        cases reported
        exact own
      · exact absurd met (never fault)
    subst own
    refine ⟨rfl, fun other => ?_⟩
    have alike : TokenStream.Alike (fun _ fault => fault = other) ⟨tokens, some fault⟩
        ⟨tokens, some other⟩ := ⟨rfl, .some rfl⟩
    obtain ⟨_, _, rfl, _, reported⟩ | ⟨_, never⟩ := alike.outcomes parser.options owner
    · exact reported
    · exact absurd met (never fault)
  · rintro ⟨rfl, asks⟩
    exact asks fault

theorem parseTokens_congr {a b : TokenStream} (tokens : a.tokens = b.tokens)
    (sound : a.fault = none ↔ b.fault = none) {outcome : Except ParseError Formula}
    (proper : ∀ fault, outcome ≠ .error (.lexical fault)) :
    parser.parseTokens owner a = outcome ↔ parser.parseTokens owner b = outcome := by
  have related : Option.Rel (fun _ _ => True) a.fault b.fault := by
    cases ends : a.fault with
    | none => rw [sound.mp ends]; exact .none
    | some fault =>
      obtain ⟨fault', ends'⟩ := Option.ne_none_iff_exists'.mp
        fun none => Option.some_ne_none fault (ends.symm.trans (sound.mpr none))
      rw [ends']
      exact .some trivial
  have empty : a = { tokens := [] } ↔ b = { tokens := [] } := by
    obtain ⟨front, fault⟩ := a
    obtain ⟨front', fault'⟩ := b
    simp only [TokenStream.mk.injEq] at tokens sound ⊢
    rw [tokens, sound]
  unfold Parser.parseTokens
  by_cases none : a = { tokens := [] }
  · rw [if_pos none, if_pos (empty.mp none)]
  · rw [if_neg none, if_neg fun none' => none (empty.mpr none')]
    have alike : a.Alike (fun _ _ => True) b := ⟨tokens, related⟩
    obtain ⟨fault, fault', -, met, met'⟩ | ⟨same, _⟩ := alike.outcomes parser.options owner
    · rw [met, met']
      exact ⟨fun same => absurd same.symm (proper fault),
        fun same => absurd same.symm (proper fault')⟩
    · rw [same]

theorem parseFor_layout {a b : Layout} (tokens : a.tokens.map (·.2) = b.tokens.map (·.2))
    (back : a.back = b.back) {outcome : Except ParseError Formula}
    (proper : ∀ fault, outcome ≠ .error (.lexical fault)) :
    parser.parseFor owner a.text = outcome ↔ parser.parseFor owner b.text = outcome := by
  have sameTokens : (TokenStream.ofText a.text).tokens = (TokenStream.ofText b.text).tokens := by
    rw [a.ofText_text, b.ofText_text, tokens, back]
    rfl
  have sound : (TokenStream.ofText a.text).fault = none ↔
      (TokenStream.ofText b.text).fault = none := by
    rw [a.ofText_text, b.ofText_text, back]
    exact Option.map_eq_none_iff.trans Option.map_eq_none_iff.symm
  rw [TokenStream.ofText_tokens, TokenStream.ofText_tokens] at sameTokens
  rw [TokenStream.ofText_fault, TokenStream.ofText_fault] at sound
  rw [parseFor_eq_parseTokens, parseFor_eq_parseTokens]
  exact parseTokens_congr sameTokens sound proper

/-- The parser reads a text as it reads its tokens, as far as it needs them, and in any layout. -/
theorem parseFor_in_phases (parser : Parser) (owner : Owner) :
    (∀ text, parser.parseFor owner text =
      parser.parseTokens owner (TokenStream.ofFormula text)) ∧
    (∀ text fault, parser.parseFor owner text = .error (.lexical fault) ↔
      (TokenStream.ofFormula text).fault = some fault ∧
        parser.AsksBehind owner (TokenStream.ofFormula text).tokens) ∧
    (∀ text front, text.toList.all isBlank = false →
      front <+: (TokenStream.ofFormula text).tokens → ¬parser.AsksBehind owner front →
      parser.parseFor owner text =
        readFormula parser.options owner ({ tokens := front } : TokenStream)) ∧
    (∀ text text', TokenStream.ofFormula text = TokenStream.ofFormula text' →
      parser.parseFor owner text = parser.parseFor owner text') ∧
    (∀ text, ∃ layout : Layout, layout.text = text ∧
      layout.tokens.map (·.2) = (TokenStream.ofFormula text).tokens) ∧
    ∀ a b : Layout, a.tokens.map (·.2) = b.tokens.map (·.2) → a.back = b.back →
      ∀ outcome, (∀ fault, outcome ≠ .error (.lexical fault)) →
        (parser.parseFor owner a.text = outcome ↔ parser.parseFor owner b.text = outcome) := by
  refine ⟨parseFor_eq_parseTokens parser owner, fun text fault => ?_,
    fun text front nonBlank begins stops => ?_, fun text text' same => ?_, fun text => ?_,
    fun a b tokens back outcome proper => parseFor_layout tokens back proper⟩
  · cases blank : text.toList.all isBlank with
    | true =>
      rw [parseFor_blank _ _ blank, TokenStream.ofFormula_eq_empty_iff.mpr blank]
      exact ⟨fun met => (nomatch met), fun met => (nomatch met.1)⟩
    | false =>
      rw [parseFor_eq_readFormula _ _ blank]
      exact readFormula_eq_lexical_iff
  · rw [parseFor_eq_readFormula _ _ nonBlank]
    exact readFormula_of_not_asksBehind stops begins
  · rw [parseFor_eq_parseTokens, parseFor_eq_parseTokens, same]
  · obtain ⟨layout, spelled, tokens⟩ := exists_layout 0 text.toList
    refine ⟨layout, ?_, tokens.trans (TokenStream.ofText_tokens text)⟩
    rw [Layout.text, spelled, String.ofList_toList]

end

/-- Where anything may follow a formula, `1)$` is the formula `1`, which is not read up to the fault,
and so it is with other blanks. -/
theorem parseFor_in_phases_unread_fault :
    ({ options := { rejectTrailing := false } } : Parser).parseFor {} "1)$" = .ok (.constant 1) ∧
      ({ options := { rejectTrailing := false } } : Parser).parseFor {} " 1 ) $" =
        .ok (.constant 1) := by
  obtain ⟨-, -, unread, -, -, layouts⟩ :=
    parseFor_in_phases { options := { rejectTrailing := false } } {}
  have reads : Reads true (.formula 0) [.number "1", .symbol ")"] (.number "1") [.symbol ")"] :=
    .formula (.number (by decide)) (.infixEnd (by decide)) (.conditionalEnd (by decide))
  have read : ∀ fault, readFormula { rejectTrailing := false } {}
      (⟨[.number "1", .symbol ")"], fault⟩ : TokenStream) = .ok (.constant 1) := by
    intro fault
    have sound : [Token.symbol ")"] = [] → fault = none := nofun
    have whole : false = true → [Token.symbol ")"] = [] := nofun
    exact (readFormula_of_reads reads sound whole).trans (if_pos (by decide))
  have tight : ({ options := { rejectTrailing := false } } : Parser).parseFor {} "1)$" =
      .ok (.constant 1) := by
    refine (unread "1)$" [.number "1", .symbol ")"] (by decide) ?_ fun asks => ?_).trans (read none)
    · decide +kernel
    · exact nomatch (asks (.invalidCharacter '$' 2)).symm.trans (read _)
  have written : ∀ gap : List Char, gap.all isBlank = true → ∃ layout : Layout,
      layout.tokens.map (·.2) = [.number "1", .symbol ")"] ∧ layout.back = ['$'] ∧
        layout.chars = gap ++ ['1'] ++ (gap ++ [')'] ++ (gap ++ ['$'])) := by
    intro gap blank
    refine ⟨⟨[(gap, .number "1"), (gap, .symbol ")")], gap, ['$'],
      ⟨blank, fun fused => (nomatch fused), blank⟩, ?_, blank, ?_⟩, rfl, rfl, rfl⟩
    · rintro _ (_ | ⟨_, _ | ⟨_, ⟨⟩⟩⟩)
      · exact ⟨by decide, by decide⟩
      · show ")" ∈ Token.symbols
        decide
    · rintro _ ⟨⟩
      exact fun comparison => absurd comparison (by decide)
  obtain ⟨a, tokensA, backA, charsA⟩ := written [] rfl
  obtain ⟨b, tokensB, backB, charsB⟩ := written [' '] (by decide)
  have other := layouts a b (tokensA.trans tokensB.symm) (backA.trans backB.symm)
    (.ok (.constant 1)) fun _ same => nomatch same
  rw [Layout.text, Layout.text, charsA, charsB] at other
  exact ⟨tight, other.mp tight⟩

end TableFormula
