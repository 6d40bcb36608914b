import TableFormula.Proofs.TextStream

namespace TableFormula

open Text

namespace Token

/-- The character that a token's spelling begins with says which kinds of token it may be. -/
theorem spelling_eq_cons {token : Token} (wellFormed : token.WellFormed) :
    ∃ c cs, token.spelling = c :: cs ∧ isBlank c = false ∧
      (isNameChar c = true → (∃ text, token = name text) ∨ ∃ text, token = number text) ∧
      (c.isDigit = true → ∃ text, token = number text) ∧ (c = '=' → token = symbol "==") := by
  have notBlank : ∀ c, isNameChar c = true → isBlank c = false := by
    intro c nameChar
    refine Bool.eq_false_iff.mpr fun blank => ?_
    rw [not_isNameChar_of_isBlank blank] at nameChar
    cases nameChar
  cases token with
  | name text =>
    obtain ⟨c, cs, spelled, letter, _⟩ := wellFormed
    have nameChar : isNameChar c = true := by rw [isNameChar, letter, Bool.true_or]
    refine ⟨c, cs, spelled, notBlank c nameChar, fun _ => Or.inl ⟨text, rfl⟩, ?_, ?_⟩
    · intro digit
      rw [not_isDigit_of_isLetter letter] at digit
      cases digit
    · rintro rfl
      exact absurd letter (by decide)
  | string text =>
    exact ⟨quoteMark, text.toList ++ [quoteMark], rfl, by decide,
      fun nameChar => absurd nameChar (by decide), fun digit => absurd digit (by decide),
      fun equals => absurd equals (by decide)⟩
  | symbol text =>
    rcases mem_symbols_cases wellFormed with ⟨c, start, complete, rfl⟩ | ⟨c, start, rfl⟩
    · obtain ⟨nameChar, blank, _⟩ := apart_of_mem_symbolChars start
      refine ⟨c, [], String.toList_ofList, blank, ?_, ?_, ?_⟩
      · exact fun named => absurd (nameChar.symm.trans named) Bool.false_ne_true
      · exact fun digit => absurd ((not_isDigit_of_not_isNameChar nameChar).symm.trans digit)
          Bool.false_ne_true
      · rintro rfl
        exact absurd (by decide) complete
    · obtain ⟨nameChar, blank, _⟩ := apart_of_mem_symbolChars (double_mem_symbols start).1
      refine ⟨c, ['='], String.toList_ofList, blank, ?_, ?_, ?_⟩
      · exact fun named => absurd (nameChar.symm.trans named) Bool.false_ne_true
      · exact fun digit => absurd ((not_isDigit_of_not_isNameChar nameChar).symm.trans digit)
          Bool.false_ne_true
      · rintro rfl
        decide
  | number text =>
    obtain ⟨nonempty, all⟩ := wellFormed
    obtain ⟨c, cs, spelled⟩ := List.exists_cons_of_ne_nil nonempty
    rw [spelled, List.all_cons, Bool.and_eq_true] at all
    have nameChar : isNameChar c = true := by rw [isNameChar, all.1, Bool.or_true]
    refine ⟨c, cs, spelled, notBlank c nameChar, fun _ => Or.inr ⟨text, rfl⟩,
      fun _ => ⟨text, rfl⟩, ?_⟩
    rintro rfl
    exact absurd all.1 (by decide)
  | endOfInput => exact wellFormed.elim

theorem endsBefore_of_not_fuses {token next : Token} (wellFormed : next.WellFormed)
    (apart : token.fuses next = false) (more : List Char) :
    token.EndsBefore (next.spelling ++ more) := by
  obtain ⟨c, cs, spelled, _, nameStart, digitStart, equalsStart⟩ := spelling_eq_cons wellFormed
  rw [spelled, List.cons_append]
  cases token with
  | name text =>
    rintro _ ⟨⟩
    refine Bool.eq_false_iff.mpr fun nameChar => ?_
    rcases nameStart nameChar with ⟨text, rfl⟩ | ⟨text, rfl⟩
    all_goals cases apart
  | number text =>
    rintro _ ⟨⟩
    refine Bool.eq_false_iff.mpr fun digit => ?_
    obtain ⟨text, rfl⟩ := digitStart digit
    cases apart
  | symbol text =>
    rintro less ⟨⟩
    obtain rfl := equalsStart rfl
    rcases List.mem_cons.mp less with rfl | less
    · cases apart
    · obtain rfl := List.mem_singleton.mp less
      cases apart
  | string text => trivial
  | endOfInput => trivial

theorem endsBefore_of_blank {token : Token} {gap more : List Char} (blank : gap.all isBlank = true)
    (next : gap = [] → token.EndsBefore more) : token.EndsBefore (gap ++ more) := by
  cases gap with
  | nil => exact next rfl
  | cons c gap =>
    rw [List.all_cons, Bool.and_eq_true] at blank
    refine (endsBefore_nil token).append ?_
    rintro _ ⟨⟩
    exact stops_of_isBlank blank.1

end Token

namespace SpacedTokens

theorem written_eq_append (tokens : SpacedTokens) (rest : List Char) :
    written tokens rest = written tokens [] ++ rest := by
  induction tokens with
  | nil => rfl
  | cons first tokens ih => rw [written, written, ih, ← List.append_assoc]

theorem written_append (front back : SpacedTokens) (rest : List Char) :
    written (front ++ back) rest = written front (written back rest) := by
  induction front with
  | nil => rfl
  | cons first front ih => rw [List.cons_append, written, written, ih]

/-- A token stands between the text that is written with its blanks and the text behind. -/
theorem written_middle (front back : SpacedTokens) (blanks rest : List Char) (token : Token) :
    written (front ++ (blanks, token) :: back) rest =
      written front blanks ++ token.spelling ++ written back rest := by
  rw [written_append, written, written_eq_append, written_eq_append front blanks]
  simp only [List.append_assoc]

theorem spaced_tail {first : List Char × Token} {tokens : SpacedTokens}
    (spaced : Spaced (first :: tokens)) : first.1.all isBlank = true ∧ Spaced tokens := by
  cases tokens with
  | nil => exact ⟨spaced, trivial⟩
  | cons next tokens => exact ⟨spaced.1, spaced.2.2⟩

theorem endsBefore_written {first : List Char × Token} {tokens : SpacedTokens} {rest : List Char}
    (spaced : Spaced (first :: tokens)) (wellFormed : ∀ pair ∈ tokens, pair.2.WellFormed)
    (ends : ∀ pair ∈ (first :: tokens).getLast?, pair.2.EndsBefore rest) :
    first.2.EndsBefore (written tokens rest) := by
  cases tokens with
  | nil => exact ends first rfl
  | cons next tokens =>
    obtain ⟨gap, token⟩ := next
    obtain ⟨_, apart, later⟩ := spaced
    have gapBlank := (spaced_tail later).1
    rw [written, List.append_assoc]
    refine Token.endsBefore_of_blank gapBlank fun none => ?_
    have apart : first.2.fuses token = false := Bool.eq_false_iff.mpr fun fused => apart fused none
    exact Token.endsBefore_of_not_fuses (wellFormed _ List.mem_cons_self) apart _

theorem getLast?_tail {first : List Char × Token} {tokens : SpacedTokens} {p : Token → Prop}
    (last : ∀ pair ∈ (first :: tokens).getLast?, p pair.2) : ∀ pair ∈ tokens.getLast?, p pair.2 := by
  cases tokens with
  | nil => exact fun pair member => nomatch member
  | cons next tokens => rwa [List.getLast?_cons_cons] at last

/-- Whether each token is read where it stands, with `rest` behind the last. -/
def Legible (rest : List Char) : SpacedTokens → Prop
  | [] => True
  | (blanks, token) :: tokens =>
    blanks.all isBlank = true ∧ token.WellFormed ∧ token.EndsBefore (written tokens rest) ∧
      Legible rest tokens

theorem legible_of_spaced {tokens : SpacedTokens} {rest : List Char} (spaced : Spaced tokens)
    (wellFormed : ∀ pair ∈ tokens, pair.2.WellFormed)
    (ends : ∀ pair ∈ tokens.getLast?, pair.2.EndsBefore rest) : Legible rest tokens := by
  induction tokens with
  | nil => trivial
  | cons first tokens ih =>
    have later : ∀ pair ∈ tokens, pair.2.WellFormed :=
      fun pair member => wellFormed pair (List.mem_cons_of_mem _ member)
    obtain ⟨blank, spacedTail⟩ := spaced_tail spaced
    exact ⟨blank, wellFormed first List.mem_cons_self, endsBefore_written spaced later ends,
      ih spacedTail later (getLast?_tail ends)⟩

theorem Legible.append {tokens : SpacedTokens} {rest more : List Char} (h : Legible rest tokens)
    (stops : ∀ c ∈ more.head?, isNameChar c = false ∧ c ≠ '=') : Legible (rest ++ more) tokens := by
  induction tokens with
  | nil => trivial
  | cons first tokens ih =>
    obtain ⟨blank, wellFormed, ends, later⟩ := h
    refine ⟨blank, wellFormed, ?_, ih later⟩
    rw [written_eq_append, ← List.append_assoc, ← written_eq_append]
    exact ends.append stops

theorem blanks_written {blanks : List Char} {token : Token} (blank : blanks.all isBlank = true)
    (wellFormed : token.WellFormed) (tokens : SpacedTokens) (rest : List Char) :
    (written ((blanks, token) :: tokens) rest).takeWhile isBlank = blanks ∧
      (written ((blanks, token) :: tokens) rest).dropWhile isBlank =
        token.spelling ++ written tokens rest := by
  obtain ⟨c, cs, spelled, notBlank, _⟩ := Token.spelling_eq_cons wellFormed
  have stops : ∀ d ∈ (token.spelling ++ written tokens rest).head?, isBlank d = false := by
    rw [spelled]
    rintro _ ⟨⟩
    exact notBlank
  rw [written, List.append_assoc]
  exact Token.takeWhile_dropWhile_append blank stops

/-- The first of legible tokens stands behind blanks and is read from there. -/
theorem Legible.read {blanks : List Char} {token : Token} {tokens : SpacedTokens}
    {rest : List Char} (h : Legible rest ((blanks, token) :: tokens)) (position : Nat) :
    (written ((blanks, token) :: tokens) rest).takeWhile isBlank = blanks ∧
      Token.read position ((written ((blanks, token) :: tokens) rest).dropWhile isBlank) =
        .ok (token, written tokens rest) ∧ token ≠ .endOfInput := by
  obtain ⟨blank, wellFormed, ends, -⟩ := h
  obtain ⟨taken, dropped⟩ := blanks_written blank wellFormed tokens rest
  exact ⟨taken, by rw [dropped, Token.read_spelling wellFormed ends],
    Token.ne_endOfInput_of_wellFormed wellFormed⟩

/-- Legible tokens are the tokens of the text before what stands behind. -/
theorem Legible.ofChars {position : Nat} {tokens : SpacedTokens} {rest : List Char}
    (h : Legible rest tokens) : TokenStream.ofChars position (written tokens rest) =
      TokenStream.append { tokens := tokens.map (·.2) }
        (TokenStream.ofChars (position + byteSize (written tokens [])) rest) := by
  induction tokens generalizing position with
  | nil => rfl
  | cons first tokens ih =>
    obtain ⟨blanks, token⟩ := first
    obtain ⟨taken, read, proper⟩ := h.read (position + byteSize blanks)
    rw [TokenStream.ofChars_eq, taken, read]
    dsimp only
    rw [if_neg proper, ih h.2.2.2, written, byteSize_append, byteSize_append, Nat.add_assoc,
      Nat.add_assoc, Nat.add_assoc]
    rfl

/-- Well-formed tokens that are written apart are the tokens of the text before what stands behind. -/
theorem ofChars_written_append {position : Nat} {tokens : SpacedTokens} {rest : List Char}
    (spaced : Spaced tokens) (wellFormed : ∀ pair ∈ tokens, pair.2.WellFormed)
    (ends : ∀ pair ∈ tokens.getLast?, pair.2.EndsBefore rest) :
    TokenStream.ofChars position (written tokens rest) =
      TokenStream.append { tokens := tokens.map (·.2) }
        (TokenStream.ofChars (position + byteSize (written tokens [])) rest) :=
  (legible_of_spaced spaced wellFormed ends).ofChars

theorem endsBefore_of_blank {tokens : SpacedTokens} {last : List Char}
    (blank : last.all isBlank = true) : ∀ pair ∈ tokens.getLast?, pair.2.EndsBefore last := by
  intro pair _
  have stops := Token.endsBefore_of_blank blank fun _ => Token.endsBefore_nil pair.2
  rwa [List.append_nil] at stops

theorem ofChars_written {position : Nat} {tokens : SpacedTokens} {last : List Char}
    (spaced : Spaced tokens) (wellFormed : ∀ pair ∈ tokens, pair.2.WellFormed)
    (blank : last.all isBlank = true) :
    TokenStream.ofChars position (written tokens last) = { tokens := tokens.map (·.2) } := by
  rw [ofChars_written_append spaced wellFormed (endsBefore_of_blank blank),
    TokenStream.ofChars_blank blank, TokenStream.append_empty]

end SpacedTokens

end TableFormula
