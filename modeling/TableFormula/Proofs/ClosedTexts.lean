import TableFormula.Proofs.OpenCalls
import TableFormula.Proofs.UnclosedParentheses

namespace TableFormula

open Text

/-! ### Writing the parentheses -/

theorem toList_pushn (text : String) (c : Char) (n : Nat) :
    (text.pushn c n).toList = text.toList ++ List.replicate n c := by
  rw [String.pushn_eq_repeat_push]
  induction n with
  | zero => exact (List.append_nil _).symm
  | succ n ih => rw [Nat.repeat, String.toList_push, ih, List.replicate_succ', List.append_assoc]

theorem openings_le_count (position : Nat) (cs : List Char) :
    openings (TokenStream.ofChars position cs).tokens ≤ cs.count '(' := by
  have spelled : ∀ tokens : List Token,
      openings tokens ≤ (tokens.flatMap Token.spelling).count '(' := by
    intro tokens
    induction tokens with
    | nil => exact Nat.le_refl 0
    | cons token tokens ih =>
      rw [List.flatMap_cons, List.count_append]
      by_cases opening : token = .symbol "("
      · subst opening
        rw [openings_cons, Nat.add_comm]
        exact Nat.add_le_add (Nat.le_of_eq rfl) ih
      · rw [openings, List.count_cons_of_ne opening]
        exact Nat.le_trans ih (Nat.le_add_left ..)
  exact Nat.le_trans (spelled _) ((TokenStream.spelling_sublist position cs).count_le _)

namespace TokenStream

theorem ofChars_closings (position m : Nat) :
    ofChars position (List.replicate m ')') = { tokens := closings m } := by
  induction m generalizing position with
  | zero => exact ofChars_blank rfl
  | succ m ih =>
    have seen : ¬isBlank ')' = true := by decide
    have wellFormed : (Token.symbol ")").WellFormed := show ")" ∈ Token.symbols by decide
    have ends : (Token.symbol ")").EndsBefore (List.replicate m ')') :=
      fun alone => absurd alone (by decide)
    have read : Token.read position (')' :: List.replicate m ')') =
        .ok (.symbol ")", List.replicate m ')') := Token.read_spelling wellFormed ends
    rw [List.replicate_succ, ofChars_eq, List.takeWhile_cons_of_neg seen,
      List.dropWhile_cons_of_neg seen, byteSize_nil, Nat.add_zero, read]
    dsimp only
    rw [if_neg nofun, ih]
    rfl

theorem ofText_pushn {text : String} {tokens : List Token} (whole : ofText text = { tokens })
    (m : Nat) : ofText (text.pushn ')' m) = { tokens := tokens ++ closings m } := by
  unfold ofText at whole ⊢
  rw [toList_pushn, ofChars_append, whole, ofChars_closings]
  · rfl
  · intro c member
    obtain rfl := List.eq_of_mem_replicate (List.mem_of_mem_head? member)
    decide
  · intro fault member
    rw [whole] at member
    cases member

theorem ofChars_trim_pushn {text : String} (sound : (ofChars 0 (trim text.toList)).fault = none)
    (m : Nat) : ofChars 0 (trim (text.pushn ')' m).toList) =
      (ofChars 0 (trim text.toList)).closedBy m := by
  have whole : ofChars 0 (trim text.toList) =
      { tokens := (ofChars 0 (trim text.toList)).tokens } := by
    generalize ofChars 0 (trim text.toList) = stream at sound
    obtain ⟨tokens, fault⟩ := stream
    exact congrArg (TokenStream.mk tokens) sound
  have closed := ofText_eq_iff.mp (ofText_pushn (ofText_eq_iff.mpr whole) m)
  rw [closed, closedBy, sound]

end TokenStream

/-! ### Reading the text -/

namespace Parser

def lenient (parser : Parser) : Parser := { parser with options := parser.options.lenient }

def closed (parser : Parser) : Parser := { parser with options := parser.options.closed }

end Parser

section

variable {parser : Parser} {owner : Owner} {text : String} {formula : Formula}

theorem parseFor_pushn {m : Nat} (nonBlank : text.toList.all isBlank = false)
    (sound : m ≠ 0 → (TokenStream.ofChars 0 (trim text.toList)).fault = none) :
    parser.parseFor owner (text.pushn ')' m) = readFormula parser.options owner
      ((TokenStream.ofChars 0 (trim text.toList)).closedBy m) := by
  cases m with
  | zero =>
    rw [TokenStream.closedBy_zero]
    exact parseFor_eq_readFormula parser owner nonBlank
  | succ m =>
    have nonBlank : (text.pushn ')' (m + 1)).toList.all isBlank = false := by
      rw [toList_pushn, List.all_append, nonBlank, Bool.false_and]
    rw [parseFor_eq_readFormula _ _ nonBlank,
      TokenStream.ofChars_trim_pushn (sound (Nat.succ_ne_zero m))]

theorem parseFor_tolerates (parser : Parser) (owner : Owner) (text : String) :
    parser.lenient.parseFor owner text ≠ .error unclosedAtEnd ∧
      ∃ missing ≤ text.toList.count '(',
        (∀ m < missing,
          parser.closed.parseFor owner (text.pushn ')' m) = .error unclosedAtEnd) ∧
        parser.closed.parseFor owner (text.pushn ')' missing) =
          parser.lenient.parseFor owner text := by
  cases blank : text.toList.all isBlank with
  | true =>
    have zero : ∀ parser : Parser, parser.parseFor owner text = .ok .zero :=
      fun parser => parseFor_blank parser owner blank
    rw [zero]
    exact ⟨nofun, 0, Nat.zero_le _, nofun, zero _⟩
  | false =>
    obtain ⟨other, missing, opened, sound, early, late⟩ := readFormula_tolerates parser.options owner
      (TokenStream.endOfInput_notMem 0 (trim text.toList))
    have few : missing ≤ text.toList.count '(' := by
      rw [← TokenStream.ofText_tokens] at opened
      exact Nat.le_trans opened (openings_le_count 0 text.toList)
    have closed : ∀ m ≤ missing, parser.closed.parseFor owner (text.pushn ')' m) =
        readFormula parser.options.closed owner
          ((TokenStream.ofChars 0 (trim text.toList)).closedBy m) :=
      fun m few => parseFor_pushn blank fun some => sound (by omega)
    rw [parseFor_eq_readFormula parser.lenient owner blank]
    refine ⟨other, missing, few, fun m less => ?_, ?_⟩
    · rw [closed m (Nat.le_of_lt less), early m less]
    · rw [closed missing (Nat.le_refl _), late]
      rfl

/-- An accepted text begins with a phrase, of which it may leave out parentheses of groups only, and
those at its end. -/
theorem phrase_of_parseFor (nonBlank : text.toList.all isBlank = false)
    (accepted : parser.parseFor owner text = .ok formula) :
    ∃ (phrase : Phrase) (read rest : List Token) (missing : Nat),
      phrase.Valid ∧ phrase.WellGrouped ∧ phrase.formula owner = formula ∧
      (TokenStream.ofText text).tokens = read ++ rest ∧ phrase.tokens = read ++ closings missing ∧
      (parser.options.rejectTrailing = true ∨ missing ≠ 0 → rest = []) ∧
      leavesCallOpen read = false := by
  obtain ⟨phrase, rest, reads, same, -, whole⟩ := reads_of_parseFor nonBlank accepted
  obtain ⟨valid, wellGrouped, -⟩ := reads.settled
  obtain ⟨read, missing, written, ends, ended, closed⟩ := reads.writes.leavesCallOpen_eq_false
  rw [Place.before, List.nil_append] at written
  exact ⟨phrase, read, rest, missing, valid, wellGrouped, same, written, ends,
    fun last => last.elim whole ended, closed⟩

theorem parseFor_of_leavesCallOpen (noTrailing : parser.options.rejectTrailing = true)
    (unclosed : leavesCallOpen (TokenStream.ofText text).tokens = true) :
    ∃ fault, parser.parseFor owner text = .error fault := by
  cases result : parser.parseFor owner text with
  | error fault => exact ⟨fault, rfl⟩
  | ok formula =>
    have nonBlank : text.toList.all isBlank = false := by
      refine Bool.eq_false_iff.mpr fun blank => ?_
      rw [TokenStream.ofText, TokenStream.ofChars_blank blank] at unclosed
      cases unclosed
    obtain ⟨phrase, read, rest, missing, _, _, _, written, _, ended, closed⟩ :=
      phrase_of_parseFor nonBlank result
    obtain rfl := ended (Or.inl noTrailing)
    rw [written, List.append_nil, closed] at unclosed
    cases unclosed

/-- To tolerate parentheses left open is to close them, with as few as it takes and no more than were
opened. Those of a call or of a property reference are not tolerated. -/
theorem parseFor_lenient_eq_closed (parser : Parser) (owner : Owner) (text : String) :
    (∃ k ≤ text.toList.count '(',
      parser.closed.parseFor owner (text.pushn ')' k) ≠ .error unclosedAtEnd ∧
      (∀ j < k, parser.closed.parseFor owner (text.pushn ')' j) = .error unclosedAtEnd) ∧
      parser.lenient.parseFor owner text = parser.closed.parseFor owner (text.pushn ')' k)) ∧
    parser.lenient.parseFor owner text ≠ .error unclosedAtEnd ∧
    (parser.closed.parseFor owner text ≠ .error unclosedAtEnd →
      parser.lenient.parseFor owner text = parser.closed.parseFor owner text) ∧
    (parser.options.rejectTrailing = true →
      leavesCallOpen (TokenStream.ofText text).tokens = true →
      ∃ fault, parser.lenient.parseFor owner text = .error fault) ∧
    ∀ formula, text.toList.all isBlank = false →
      parser.lenient.parseFor owner text = .ok formula →
      ∃ (phrase : Phrase) (read rest : List Token) (missing : Nat),
        phrase.Valid ∧ phrase.WellGrouped ∧ phrase.formula owner = formula ∧
        (TokenStream.ofText text).tokens = read ++ rest ∧
        phrase.tokens = read ++ closings missing ∧
        (parser.options.rejectTrailing = true ∨ missing ≠ 0 → rest = []) ∧
        leavesCallOpen read = false := by
  obtain ⟨other, missing, few, early, late⟩ := parseFor_tolerates parser owner text
  refine ⟨⟨missing, few, late ▸ other, early, late.symm⟩, other, fun agrees => ?_, ?_, ?_⟩
  · cases missing with
    | zero => exact late.symm
    | succ missing => exact absurd (early 0 (Nat.succ_pos missing)) agrees
  · intro noTrailing
    exact parseFor_of_leavesCallOpen (show parser.lenient.options.rejectTrailing = true from noTrailing)
  · exact fun formula => phrase_of_parseFor

/-- The call in `(max(1, 2` is refused although the parenthesis around it would be tolerated. -/
theorem parseFor_lenient_unclosed_call :
    leavesCallOpen (TokenStream.ofText "(max(1, 2").tokens = true ∧
      ∃ fault, ({} : Parser).lenient.parseFor {} "(max(1, 2" = .error fault := by
  have unclosed : leavesCallOpen (TokenStream.ofText "(max(1, 2").tokens = true := by decide +kernel
  exact ⟨unclosed, (parseFor_lenient_eq_closed {} {} "(max(1, 2").2.2.2.1 rfl unclosed⟩

end

end TableFormula
