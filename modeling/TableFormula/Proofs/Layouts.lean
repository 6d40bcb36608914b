import TableFormula.Proofs.WrittenText

namespace TableFormula

open Text

namespace Token

theorem spelling_name {text : String} (wellFormed : (name text).WellFormed) :
    ∃ c cs, (name text).spelling = c :: cs ∧ isNameChar c = true := by
  obtain ⟨c, cs, spelled, letter, _⟩ := wellFormed
  exact ⟨c, cs, spelled, by rw [isNameChar, letter, Bool.true_or]⟩

theorem spelling_number {digits : String} (wellFormed : (number digits).WellFormed) :
    ∃ c cs, (number digits).spelling = c :: cs ∧ c.isDigit = true := by
  obtain ⟨nonempty, all⟩ := wellFormed
  obtain ⟨c, cs, spelled⟩ := List.exists_cons_of_ne_nil nonempty
  rw [spelled, List.all_cons, Bool.and_eq_true] at all
  exact ⟨c, cs, spelled, all.1⟩

/-- Whether a text is at its end, or at a fault, where `position` bytes of it were read. -/
def StopsAt (position : Nat) (back : List Char) : Option LexFault → Prop
  | none => back = []
  | some fault =>
    ∃ c behind, back = c :: behind ∧ isBlank c = false ∧ FaultAt position c behind fault

theorem not_endsBefore_of_fuses {token next : Token} (wellFormed : next.WellFormed)
    (fused : token.fuses next = true) (more : List Char) :
    ¬token.EndsBefore (next.spelling ++ more) := by
  intro ends
  unfold fuses at fused
  split at fused
  · obtain ⟨c, cs, spelled, nameChar⟩ := spelling_name wellFormed
    rw [spelled] at ends
    exact Bool.false_ne_true ((ends c rfl).symm.trans nameChar)
  · obtain ⟨c, cs, spelled, digit⟩ := spelling_number wellFormed
    rw [spelled] at ends
    exact Bool.false_ne_true ((not_isDigit_of_not_isNameChar (ends c rfl)).symm.trans digit)
  · obtain ⟨c, cs, spelled, digit⟩ := spelling_number wellFormed
    rw [spelled] at ends
    exact Bool.false_ne_true ((ends c rfl).symm.trans digit)
  · exact ends (by decide) rfl
  · exact ends (by decide) rfl
  · cases fused

end Token

namespace SpacedTokens

/-- Tokens stand apart in front of others if the text behind the first does not continue it. -/
theorem spaced_cons {gap : List Char} {token : Token} {tokens : SpacedTokens} {rest : List Char}
    (blank : gap.all isBlank = true) (ends : token.EndsBefore (tokens.written rest))
    (wellFormed : ∀ pair ∈ tokens, pair.2.WellFormed) (spaced : tokens.Spaced) :
    Spaced ((gap, token) :: tokens) := by
  cases tokens with
  | nil => exact blank
  | cons next tokens =>
    obtain ⟨inner, next⟩ := next
    refine ⟨blank, ?_, spaced⟩
    rintro fused rfl
    rw [written, List.nil_append] at ends
    exact Token.not_endsBefore_of_fuses (wellFormed _ List.mem_cons_self) fused _ ends

theorem legible_iff {tokens : SpacedTokens} {rest : List Char} :
    Legible rest tokens ↔ Spaced tokens ∧ (∀ pair ∈ tokens, pair.2.WellFormed) ∧
      ∀ pair ∈ tokens.getLast?, pair.2.EndsBefore rest := by
  refine ⟨fun legible => ?_, fun ⟨spaced, wellFormed, ends⟩ =>
    legible_of_spaced spaced wellFormed ends⟩
  induction tokens with
  | nil =>
    refine ⟨trivial, fun pair member => absurd member List.not_mem_nil, ?_⟩
    rintro pair ⟨⟩
  | cons first tokens ih =>
    obtain ⟨blanks, token⟩ := first
    obtain ⟨blank, wellFormed, ends, later⟩ := legible
    obtain ⟨spaced, laterWellFormed, endsLast⟩ := ih later
    refine ⟨spaced_cons blank ends laterWellFormed spaced, ?_, ?_⟩
    · rintro pair (_ | ⟨_, member⟩)
      · exact wellFormed
      · exact laterWellFormed pair member
    · cases tokens with
      | nil =>
        rintro _ ⟨⟩
        exact ends
      | cons next tokens => rwa [List.getLast?_cons_cons]

end SpacedTokens

/-- Tokens with blanks before each, then blanks, and what stands behind them. -/
structure Layout where
  tokens : SpacedTokens
  gap : List Char
  back : List Char
  spaced : tokens.Spaced
  wellFormed : ∀ pair ∈ tokens, pair.2.WellFormed
  blank : gap.all isBlank = true
  ends : ∀ pair ∈ tokens.getLast?, pair.2.EndsBefore (gap ++ back)

namespace Layout

def chars (layout : Layout) : List Char := layout.tokens.written (layout.gap ++ layout.back)

def text (layout : Layout) : String := String.ofList layout.chars

theorem ofText_text (layout : Layout) : TokenStream.ofText layout.text =
    TokenStream.append { tokens := layout.tokens.map (·.2) }
      ((TokenStream.ofChars 0 layout.back).shift
        (byteSize (layout.tokens.written []) + byteSize layout.gap)) := by
  rw [TokenStream.ofText, text, String.toList_ofList, chars,
    SpacedTokens.ofChars_written_append layout.spaced layout.wellFormed layout.ends,
    TokenStream.ofChars_blank_append layout.blank, Nat.zero_add, ← TokenStream.ofChars_shift,
    Nat.add_zero]

end Layout

/-- Every text is legible tokens, blanks, and then its end or what no token begins with. -/
theorem exists_legible (position : Nat) (cs : List Char) :
    ∃ (tokens : SpacedTokens) (gap back : List Char), tokens.written (gap ++ back) = cs ∧
      tokens.Legible (gap ++ back) ∧ gap.all isBlank = true ∧
      tokens.map (·.2) = (TokenStream.ofChars position cs).tokens ∧
      Token.StopsAt (position + byteSize (tokens.written gap)) back
        (TokenStream.ofChars position cs).fault := by
  fun_induction TokenStream.ofChars position cs with
  | case1 position cs blanks start fault found =>
    refine ⟨[], cs.takeWhile isBlank, cs.dropWhile isBlank, List.takeWhile_append_dropWhile, trivial,
      List.all_takeWhile, rfl, ?_⟩
    have stops : ∀ c ∈ (cs.dropWhile isBlank).head?, isBlank c = false := Token.head?_dropWhile
    cases back : cs.dropWhile isBlank with
    | nil =>
      rw [back] at found
      cases found
    | cons c behind =>
      rw [back] at found stops
      exact ⟨c, behind, rfl, stops c rfl, Token.read_eq_error_iff.mp found⟩
  | case2 position cs blanks start rest found =>
    exact ⟨[], cs.takeWhile isBlank, cs.dropWhile isBlank, List.takeWhile_append_dropWhile, trivial,
      List.all_takeWhile, rfl, Token.eq_nil_of_read_endOfInput found⟩
  | case3 position cs blanks start token rest found proper later ih =>
    obtain ⟨wellFormed, ends, whole⟩ := (Token.read_eq_ok_iff proper).mp found
    obtain ⟨tokens, gap, back, rfl, legible, blank, same, stops⟩ := ih
    refine ⟨(cs.takeWhile isBlank, token) :: tokens, gap, back, ?_,
      ⟨List.all_takeWhile, wellFormed, ends, legible⟩, blank, congrArg (token :: ·) same, ?_⟩
    · rw [SpacedTokens.written, List.append_assoc, whole, List.takeWhile_append_dropWhile]
    · have bytes : start + byteSize token.spelling + byteSize (tokens.written gap) =
          position + byteSize (SpacedTokens.written ((cs.takeWhile isBlank, token) :: tokens) gap) := by
        rw [SpacedTokens.written, byteSize_append, byteSize_append, ← Nat.add_assoc, ← Nat.add_assoc]
      rwa [bytes] at stops

theorem exists_layout (position : Nat) (cs : List Char) :
    ∃ layout : Layout, layout.chars = cs ∧
      layout.tokens.map (·.2) = (TokenStream.ofChars position cs).tokens := by
  obtain ⟨tokens, gap, back, spelled, legible, blank, same, -⟩ := exists_legible position cs
  obtain ⟨spaced, wellFormed, ends⟩ := SpacedTokens.legible_iff.mp legible
  exact ⟨⟨tokens, gap, back, spaced, wellFormed, blank, ends⟩, spelled, same⟩

end TableFormula
