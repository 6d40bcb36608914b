import TableFormula.Proofs.Layouts

namespace TableFormula

open Text

/-! ### Positions behind tokens -/

namespace SpacedTokens

/-- The tokens, each with the position behind it, in a text that begins at `position`. -/
def places (position : Nat) : SpacedTokens → List (Except LexFault Token × Nat)
  | [] => []
  | (blanks, token) :: tokens =>
    (.ok token, position + byteSize blanks + byteSize token.spelling) ::
      places (position + byteSize blanks + byteSize token.spelling) tokens

theorem map_fst_places (position : Nat) (tokens : SpacedTokens) :
    (tokens.places position).map (·.1) = tokens.map (.ok ·.2) := by
  induction tokens generalizing position with
  | nil => rfl
  | cons first tokens ih => rw [places, List.map_cons, List.map_cons, ih]

theorem getElem?_places (position : Nat) (before : SpacedTokens) (pair : List Char × Token)
    (behind : SpacedTokens) :
    (places position (before ++ pair :: behind))[before.length]? =
      some (.ok pair.2, position + byteSize (written (before ++ [pair]) [])) := by
  induction before generalizing position with
  | nil =>
    simp only [List.nil_append, places, List.length_nil, List.getElem?_cons_zero, written,
      List.append_nil, byteSize_append, Nat.add_assoc]
  | cons first before ih =>
    simp only [List.cons_append, places, List.length_cons, List.getElem?_cons_succ, ih, written,
      byteSize_append, Nat.add_assoc]

theorem length_places (position : Nat) (tokens : SpacedTokens) :
    (tokens.places position).length = tokens.length := by
  rw [← List.length_map (·.1), map_fst_places, List.length_map]

theorem Legible.of_append {rest : List Char} {before behind : SpacedTokens}
    (h : Legible rest (before ++ behind)) : Legible rest behind := by
  induction before with
  | nil => exact h
  | cons first before ih => exact ih h.2.2.2

/-- Tokens between blanks that are the tokens of their text are read where they stand. -/
theorem legible_of_ofChars {position : Nat} {tokens : SpacedTokens} {rest : List Char}
    (blank : ∀ pair ∈ tokens, pair.1.all isBlank = true)
    (wellFormed : ∀ pair ∈ tokens, pair.2.WellFormed)
    (same : tokens.map (·.2) <+: (TokenStream.ofChars position (written tokens rest)).tokens) :
    Legible rest tokens := by
  induction tokens generalizing position with
  | nil => trivial
  | cons first tokens ih =>
    obtain ⟨blanks, token⟩ := first
    obtain ⟨gapBlank, laterBlank⟩ := List.forall_mem_cons.mp blank
    obtain ⟨tokenWellFormed, laterWellFormed⟩ := List.forall_mem_cons.mp wellFormed
    obtain ⟨taken, dropped⟩ := blanks_written gapBlank tokenWellFormed tokens rest
    rw [TokenStream.ofChars_eq, taken, dropped] at same
    cases found : Token.read (position + byteSize blanks) (token.spelling ++ written tokens rest) with
    | error fault =>
      rw [found] at same
      exact absurd (List.prefix_nil.mp same) (List.cons_ne_nil _ _)
    | ok read =>
      obtain ⟨first, behind⟩ := read
      rw [found] at same
      dsimp only at same
      split at same
      · exact absurd (List.prefix_nil.mp same) (List.cons_ne_nil _ _)
      · rename_i proper
        obtain ⟨rfl, same⟩ := List.cons_prefix_cons.mp same
        obtain ⟨-, ends, whole⟩ := (Token.read_eq_ok_iff proper).mp found
        obtain rfl := List.append_cancel_left whole
        exact ⟨gapBlank, tokenWellFormed, ends, ih laterBlank laterWellFormed same⟩

end SpacedTokens

namespace Lexer

/-! ### Tokens in turn -/

theorem drain_legible {position : Nat} {tokens : SpacedTokens} {rest : List Char}
    (legible : tokens.Legible rest) :
    ({ rest := tokens.written rest, position } : Lexer).drain = tokens.places position ++
      ({ rest, position := position + byteSize (tokens.written []) } : Lexer).drain := by
  induction tokens generalizing position with
  | nil => rfl
  | cons first tokens ih =>
    obtain ⟨blanks, token⟩ := first
    obtain ⟨taken, read, proper⟩ := legible.read (position + byteSize blanks)
    rw [drain_eq]
    simp only [next, scan, skipBlanks]
    rw [taken, read]
    simp only
    rw [if_neg proper, ih legible.2.2.2, SpacedTokens.places, SpacedTokens.written, byteSize_append,
      byteSize_append, List.cons_append, Nat.add_assoc, Nat.add_assoc, Nat.add_assoc]

/-- Behind its last token a text has its end or a fault. -/
theorem drain_back {position : Nat} {gap back : List Char} (blank : gap.all isBlank = true)
    {fault : Option LexFault} (stops : Token.StopsAt (position + byteSize gap) back fault) :
    ({ rest := gap ++ back, position } : Lexer).drain =
      [(TokenStream.ending fault, position + byteSize gap)] := by
  have split : (gap ++ back).takeWhile isBlank = gap ∧ (gap ++ back).dropWhile isBlank = back := by
    refine Token.takeWhile_dropWhile_append blank ?_
    cases fault with
    | none =>
      obtain rfl := stops
      rintro c ⟨⟩
    | some fault =>
      obtain ⟨c, behind, rfl, notBlank, -⟩ := stops
      rintro _ ⟨⟩
      exact notBlank
  rw [drain_eq]
  simp only [next, scan, skipBlanks]
  rw [split.1, split.2]
  cases fault with
  | none =>
    obtain rfl := stops
    rfl
  | some fault =>
    obtain ⟨c, behind, rfl, -, found⟩ := stops
    rw [Token.read_eq_error_iff.mpr found]
    rfl

theorem exists_drain (text : String) :
    ∃ (tokens : SpacedTokens) (gap back : List Char), tokens.written (gap ++ back) = text.toList ∧
      tokens.Legible (gap ++ back) ∧ gap.all isBlank = true ∧
      tokens.map (·.2) = (TokenStream.ofText text).tokens ∧
      Token.StopsAt (byteSize (tokens.written gap)) back (TokenStream.ofText text).fault ∧
      (ofText text).drain = tokens.places 0 ++
        [(TokenStream.ending (TokenStream.ofText text).fault, byteSize (tokens.written gap))] := by
  obtain ⟨tokens, gap, back, spelled, legible, blank, same, stops⟩ := exists_legible 0 text.toList
  rw [Nat.zero_add] at stops
  refine ⟨tokens, gap, back, spelled, legible, blank, same, stops, ?_⟩
  have bytes : byteSize (tokens.written gap) = 0 + byteSize (tokens.written []) + byteSize gap := by
    rw [SpacedTokens.written_eq_append, byteSize_append, Nat.zero_add]
  rw [bytes] at stops ⊢
  rw [TokenStream.ofText, ← drain_back blank stops, ← drain_legible legible, spelled]
  rfl

/-- What a lexer gives up to its end are the tokens of its text. -/
theorem map_fst_drain (text : String) : (ofText text).drain.map (·.1) =
    (TokenStream.ofText text).tokens.map .ok ++
      [TokenStream.ending (TokenStream.ofText text).fault] := by
  obtain ⟨tokens, gap, back, -, -, -, same, -, drained⟩ := exists_drain text
  rw [drained, List.map_append, SpacedTokens.map_fst_places, ← same, List.map_map]
  rfl

/-- A lexer takes its text apart into tokens as long as they can be, with blanks between them. It
stops at the end of the text or where no token begins, and its positions count what it has read. -/
theorem drain_ofText (text : String) :
    ∃ (tokens : SpacedTokens) (gap rest : List Char) (last : Except LexFault Token),
      text.toList = tokens.written (gap ++ rest) ∧ gap.all isBlank = true ∧
      (ofText text).drain.map (·.1) = tokens.map (.ok ·.2) ++ [last] ∧
      (∀ before blanks token behind, tokens = before ++ (blanks, token) :: behind →
        blanks.all isBlank = true ∧ token.WellFormed ∧
        token.EndsBefore (SpacedTokens.written behind (gap ++ rest)) ∧
        (ofText text).drain[before.length]? =
          some (.ok token, byteSize (SpacedTokens.written (before ++ [(blanks, token)]) []))) ∧
      (last = .ok .endOfInput ∧ rest = [] ∨
        ∃ fault c behind, last = .error fault ∧ rest = c :: behind ∧ isBlank c = false ∧
          Token.FaultAt (byteSize (tokens.written gap)) c behind fault) := by
  obtain ⟨tokens, gap, rest, spelled, legible, blank, -, stops, drained⟩ := exists_drain text
  generalize (TokenStream.ofText text).fault = fault at stops drained
  refine ⟨tokens, gap, rest, TokenStream.ending fault, spelled.symm, blank, ?_, ?_, ?_⟩
  · rw [drained, List.map_append, SpacedTokens.map_fst_places]
    rfl
  · rintro before blanks token behind rfl
    obtain ⟨gapBlank, wellFormed, ends, -⟩ := legible.of_append
    refine ⟨gapBlank, wellFormed, ends, ?_⟩
    rw [drained, List.getElem?_append_left, SpacedTokens.getElem?_places, Nat.zero_add]
    rw [SpacedTokens.length_places, List.length_append]
    exact Nat.lt_add_of_pos_right (Nat.succ_pos _)
  · cases fault with
    | none => exact .inl ⟨rfl, stops⟩
    | some fault =>
      obtain ⟨c, behind, begins, notBlank, found⟩ := stops
      exact .inr ⟨fault, c, behind, rfl, begins, notBlank, found⟩

/-- Tokens that are written with blanks between them are given back, and then the end, exactly if
there are blanks wherever two tokens would run together. -/
theorem drain_written_iff {tokens : SpacedTokens} {last : List Char}
    (blank : ∀ pair ∈ tokens, pair.1.all isBlank = true)
    (wellFormed : ∀ pair ∈ tokens, pair.2.WellFormed) (lastBlank : last.all isBlank = true) :
    (ofText (String.ofList (tokens.written last))).drain.map (·.1) =
        tokens.map (.ok ·.2) ++ [.ok .endOfInput] ↔ tokens.Spaced := by
  rw [map_fst_drain, TokenStream.ofText, String.toList_ofList]
  constructor
  · intro given
    have found := (List.append_inj' given rfl).1.trans List.map_map.symm
    have same := (List.map_inj_right fun _ _ => Except.ok.inj).mp found
    have legible := SpacedTokens.legible_of_ofChars blank wellFormed
      ⟨[], (List.append_nil _).trans same.symm⟩
    exact (SpacedTokens.legible_iff.mp legible).1
  · intro spaced
    rw [SpacedTokens.ofChars_written spaced wellFormed lastBlank, List.map_map]
    rfl

/-- A name may follow a number and a string another without a blank, but `==` may not follow `<`. -/
theorem drain_written_neighbours :
    (ofText "12abc 7< =='a''b'").drain.map (·.1) =
      [.ok (.number "12"), .ok (.name "abc"), .ok (.number "7"), .ok (.symbol "<"),
        .ok (.symbol "=="), .ok (.string "a"), .ok (.string "b"), .ok .endOfInput] := by
  let tokens : SpacedTokens :=
    [([], .number "12"), ([], .name "abc"), ([' '], .number "7"), ([], .symbol "<"),
      ([' '], .symbol "=="), ([], .string "a"), ([], .string "b")]
  have text : "12abc 7< =='a''b'" = String.ofList (tokens.written []) := by decide
  rw [text]
  have blank : ∀ pair ∈ tokens, pair.1.all isBlank = true :=
    Token.forall_mem_of_all (by decide)
  have wellFormed : ∀ pair ∈ tokens, pair.2.WellFormed := Token.forall_mem_of_all (by decide)
  exact (drain_written_iff blank wellFormed rfl).mpr (by decide)

end Lexer

end TableFormula
