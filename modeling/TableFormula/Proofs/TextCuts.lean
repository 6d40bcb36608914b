import TableFormula.Proofs.BytePositions
import TableFormula.Proofs.LexerAnswers

namespace TableFormula

open Text

theorem Token.utf8Size_comparison {c : Char} (comparison : c ∈ comparisonChars) :
    c.utf8Size = 1 := by
  have all : ∀ c ∈ comparisonChars, c.utf8Size = 1 := forall_mem_of_all (by decide)
  exact all c comparison

theorem Token.readString_closed (position : Nat) {cs : List Char} (closed : quoteMark ∈ cs) :
    ∃ rest, readString position cs =
      .ok (string (String.ofList (cs.takeWhile (· != quoteMark))), rest) := by
  cases found : readString position cs with
  | error fault => exact absurd closed (readString_eq_error_iff.mp found).1
  | ok read =>
    unfold readString at found
    split at found
    · cases found
    · cases found
      exact ⟨_, rfl⟩

/-! ### Where a cursor stands -/

namespace Cursor

/-- Whether a cursor stands between two parts of its text. -/
structure Between (cursor : Cursor) (front behind : List Char) : Prop where
  split : cursor.text.toList = front ++ behind
  position : cursor.position = byteSize front

namespace Between

variable {cursor : Cursor} {front run behind : List Char} {c : Char}

theorem rest? (between : cursor.Between front behind) : cursor.rest? = some behind := by
  rw [Cursor.rest?, between.position, cut?_to_end between.split]

theorem current? (between : cursor.Between front behind) :
    cursor.current? = some behind.head? := by
  rw [Cursor.current?, between.rest?, Option.map_some]

theorem afterCurrent? (between : cursor.Between front behind) :
    cursor.afterCurrent? = some behind[1]? := by
  rw [Cursor.afterCurrent?, between.rest?, Option.map_some]

theorem forward (between : cursor.Between front (run ++ behind)) :
    (cursor.forward (byteSize run)).Between (front ++ run) behind where
  split := between.split.trans (List.append_assoc ..).symm
  position := by rw [Cursor.forward, byteSize_append, ← between.position]

theorem forward_char (between : cursor.Between front (c :: behind)) :
    (cursor.forward c.utf8Size).Between (front ++ [c]) behind := by
  have single : cursor.Between front ([c] ++ behind) := between
  exact single.forward

theorem splitWhile (between : cursor.Between front behind) (p : Char → Bool) :
    cursor.Between front (behind.takeWhile p ++ behind.dropWhile p) := by
  rwa [List.takeWhile_append_dropWhile]

/-- The cursor goes past the longest run, whatever the widths of its characters are. -/
theorem skipWhile? (between : cursor.Between front behind) (p : Char → Bool) :
    cursor.skipWhile? p = some (cursor.forward (byteSize (behind.takeWhile p))) := by
  induction behind generalizing cursor front with
  | nil =>
    rw [skipWhile?_eq, between.current?]
    rfl
  | cons c behind ih =>
    rw [skipWhile?_eq, between.current?]
    show (if p c then _ else _) = _
    cases holds : p c with
    | true =>
      rw [if_pos rfl, ih between.forward_char, List.takeWhile_cons_of_pos holds, byteSize_cons]
      simp only [Cursor.forward, Nat.add_assoc]
    | false =>
      rw [if_neg Bool.false_ne_true, List.takeWhile_cons_of_neg (by simp [holds])]
      rfl

end Between

/-! ### One token -/

/-- The cursor behind what was read at its place. -/
def past (cursor : Cursor) (read : Except LexFault (Token × List Char)) :
    Except LexFault Token × Cursor :=
  match read with
  | .ok (token, _) => (.ok token, cursor.forward (byteSize token.spelling))
  | .error fault => (.error fault, cursor)

namespace Between

variable {cursor : Cursor} {front behind cs : List Char} {c : Char}

theorem readRun? (between : cursor.Between front behind) {token : String → Token}
    (spelled : ∀ text, (token text).spelling = text.toList) (p : Char → Bool) :
    cursor.readRun? token p = some (cursor.past
      (.ok (token (String.ofList (behind.takeWhile p)), behind.dropWhile p))) := by
  have cut : cut? cursor.text cursor.position
      (cursor.forward (byteSize (behind.takeWhile p))).position = some (behind.takeWhile p) := by
    rw [Cursor.forward, between.position, cut?_of_toList (between.splitWhile p).split]
  rw [Cursor.readRun?, between.skipWhile?, past, spelled, String.toList_ofList]
  show (cut? _ _ _).bind _ = _
  rw [cut]
  rfl

/-- Behind a comparison an equals sign makes two bytes; every other symbol is one character. -/
theorem readSymbol? (between : cursor.Between front (c :: cs)) :
    cursor.readSymbol? c = some (cursor.past (Token.readSymbol cursor.position c cs)) := by
  rw [Cursor.readSymbol?, between.afterCurrent?]
  simp only [List.getElem?_cons_succ, ← List.head?_eq_getElem?, Option.bind_eq_bind,
    Option.bind_some]
  by_cases extended : cs.head? = some '='
  · obtain ⟨rest, rfl⟩ := List.head?_eq_some_iff.mp extended
    by_cases comparison : c ∈ Token.comparisonChars
    · have bytes : byteSize [c, '='] = 2 := by
        rw [byteSize_cons, Token.utf8Size_comparison comparison]
        rfl
      rw [Token.readSymbol_double comparison]
      simp [comparison, past, Token.spelling, Token.text, bytes]
    · simp [comparison, past, Token.readSymbol, Token.spelling, Token.text]
  · by_cases incomplete : c ∈ Token.incompleteChars
    · rw [Token.readSymbol_eq_error_iff.mpr ⟨incomplete, extended, rfl⟩]
      simp [extended, incomplete, past]
    · rw [Token.readSymbol_single incomplete fun _ => extended]
      simp [extended, incomplete, past, Token.spelling, Token.text]

/-- The two quotes of a string take one byte each. -/
theorem readString? (between : cursor.Between front (Token.quoteMark :: cs)) :
    cursor.readString? = some (cursor.past (Token.readString cursor.position cs)) := by
  have opened : (cursor.forward 1).Between (front ++ [Token.quoteMark]) cs := between.forward_char
  have start : cursor.position + 1 = byteSize (front ++ [Token.quoteMark]) := opened.position
  have body : cursor.text.toList = front ++ [Token.quoteMark] ++ cs := opened.split
  rw [Cursor.readString?]
  dsimp only
  rw [start, cut?_to_end body]
  show (if Token.quoteMark ∈ cs then _ else _) = _
  by_cases closed : Token.quoteMark ∈ cs
  · obtain ⟨rest, read⟩ := Token.readString_closed cursor.position closed
    have string : cursor.text.toList = front ++ [Token.quoteMark] ++
        (cs.takeWhile (· != Token.quoteMark) ++ cs.dropWhile (· != Token.quoteMark)) :=
      (opened.splitWhile _).split
    have stop : byteSize (Token.string (String.ofList
        (cs.takeWhile (· != Token.quoteMark)))).spelling =
          1 + byteSize (cs.takeWhile (· != Token.quoteMark)) + 1 := by
      rw [Token.spelling, String.toList_ofList, byteSize_append, byteSize_cons]
      rfl
    rw [if_pos closed, cut?_of_toList string, read, past, stop, ← start, Cursor.forward,
      ← Nat.add_assoc, ← Nat.add_assoc]
    rfl
  · rw [if_neg closed, Token.readString_eq_error_iff.mpr ⟨closed, rfl⟩]
    rfl

theorem read? (between : cursor.Between front behind) :
    cursor.read? = some (cursor.past (Token.read cursor.position behind)) := by
  rw [Cursor.read?, between.current?]
  cases behind with
  | nil => rfl
  | cons c cs =>
    show (if c ∈ Token.symbolChars then cursor.readSymbol? c else _) = _
    rw [Token.read]
    split
    · exact between.readSymbol?
    · split
      · rename_i digit
        rw [between.readRun? (fun _ => rfl), List.takeWhile_cons_of_pos digit,
          List.dropWhile_cons_of_pos digit]
      · split
        · rename_i mark
          rw [mark] at between
          exact between.readString?
        · split
          · rename_i letter
            have first : isNameChar c = true := by simp [isNameChar, letter]
            rw [between.readRun? (fun _ => rfl), List.takeWhile_cons_of_pos first,
              List.dropWhile_cons_of_pos first]
          · rfl

theorem scan? (between : cursor.Between front behind) : cursor.scan? =
    some ((cursor.forward (byteSize (behind.takeWhile isBlank))).past
      (Token.read (cursor.position + byteSize (behind.takeWhile isBlank))
        (behind.dropWhile isBlank))) := by
  rw [Cursor.scan?, between.skipWhile?]
  exact (between.splitWhile isBlank).forward.read?

/-- What was read stands in front of the place behind it. -/
theorem behind_read (between : cursor.Between front behind) {position : Nat} {token : Token}
    {rest : List Char} (read : Token.read position behind = .ok (token, rest)) :
    (cursor.forward (byteSize token.spelling)).Between (front ++ token.spelling) rest :=
  forward (by rwa [Token.spelling_of_read read])

end Between

/-- Whether a cursor stands where a lexer does, with what the lexer has to read behind it. -/
structure Follows (cursor : Cursor) (lexer : Lexer) : Prop where
  between : ∃ front, cursor.Between front lexer.rest
  position : lexer.position = cursor.position
  peeked : lexer.peeked = cursor.peeked

/-- Whether a cursor answers as a lexer does, follows it and does not go back. -/
def Agrees (cursor : Cursor) (asked : Option (Except LexFault Token × Cursor))
    (answer : Except LexFault Token × Lexer) : Prop :=
  ∃ after, asked = some (answer.1, after) ∧ after.Follows answer.2 ∧
    after.text = cursor.text ∧ cursor.position ≤ after.position

namespace Follows

variable {cursor : Cursor} {lexer : Lexer}

theorem isValid (follows : cursor.Follows lexer) :
    String.Pos.Raw.IsValid cursor.text ⟨lexer.position⟩ := by
  obtain ⟨front, between⟩ := follows.between
  rw [follows.position, between.position]
  exact isValid_of_toList between.split

/-- A cursor follows with another token kept, or none. -/
theorem keep (follows : cursor.Follows lexer) (peeked : Option Token) :
    Follows { cursor with peeked } { lexer with peeked } where
  between := by
    obtain ⟨front, between⟩ := follows.between
    exact ⟨front, between.split, between.position⟩
  position := follows.position
  peeked := rfl

theorem skipBlanks (follows : cursor.Follows lexer) :
    (cursor.forward (byteSize (lexer.rest.takeWhile isBlank))).Follows lexer.skipBlanks where
  between := by
    obtain ⟨front, between⟩ := follows.between
    exact ⟨_, (between.splitWhile isBlank).forward⟩
  position := by rw [Cursor.forward, Lexer.skipBlanks, follows.position]
  peeked := follows.peeked

theorem scan? (follows : cursor.Follows lexer) : cursor.Agrees cursor.scan? lexer.scan := by
  obtain ⟨front, between⟩ := follows.between
  obtain ⟨⟨front', reached⟩, place, kept⟩ := follows.skipBlanks
  rw [Agrees, between.scan?, ← follows.position]
  have goes : lexer.position ≤ lexer.skipBlanks.position := Nat.le_add_right _ _
  simp only [Lexer.scan]
  change ∃ after, some (Cursor.past _
    (Token.read lexer.skipBlanks.position lexer.skipBlanks.rest)) = _ ∧ _
  cases found : Token.read lexer.skipBlanks.position lexer.skipBlanks.rest with
  | error fault => exact ⟨_, rfl, follows.skipBlanks, rfl, place ▸ goes⟩
  | ok read =>
    obtain ⟨token, rest⟩ := read
    refine ⟨_, rfl, ⟨⟨_, reached.behind_read found⟩, ?_, kept⟩, rfl, ?_⟩
    · exact congrArg (· + byteSize token.spelling) place
    · exact Nat.le_trans (place ▸ goes) (Nat.le_add_right _ _)

theorem peek? (follows : cursor.Follows lexer) : cursor.Agrees cursor.peek? lexer.peek := by
  unfold Cursor.peek?
  rw [← follows.peeked]
  cases empty : lexer.peeked with
  | some token =>
    simp only [Lexer.peek, empty]
    exact ⟨cursor, rfl, follows, rfl, Nat.le_refl _⟩
  | none =>
    obtain ⟨after, scanned, later, same, goes⟩ := follows.scan?
    rw [Lexer.peek_of_empty empty, scanned]
    cases lexer.scan.1 with
    | error fault => exact ⟨after, rfl, later, same, goes⟩
    | ok token => exact ⟨_, rfl, later.keep (some token), same, goes⟩

theorem next? (follows : cursor.Follows lexer) : cursor.Agrees cursor.next? lexer.next := by
  unfold Cursor.next?
  rw [← follows.peeked]
  cases kept : lexer.peeked with
  | some token =>
    rw [Lexer.next_of_peeked kept]
    exact ⟨_, rfl, follows.keep none, rfl, Nat.le_refl _⟩
  | none =>
    simp only [Lexer.next, kept]
    exact follows.scan?

theorem answer? (follows : cursor.Follows lexer) (request : Lexer.Request) :
    cursor.Agrees (cursor.answer? request) (lexer.answer request) :=
  match request with
  | .peek => follows.peek?
  | .next => follows.next?

theorem answers? (follows : cursor.Follows lexer) (requests : List Lexer.Request) :
    cursor.answers? requests = some (lexer.answers requests) := by
  induction requests generalizing cursor lexer with
  | nil => rfl
  | cons request requests ih =>
    obtain ⟨after, answered, later, -⟩ := follows.answer? request
    rw [Cursor.answers?, answered, Lexer.answers_cons, later.position]
    show (after.answers? requests).bind _ = _
    rw [ih later]
    rfl

theorem positions (follows : cursor.Follows lexer) (requests : List Lexer.Request) :
    (∀ answer ∈ lexer.answers requests, String.Pos.Raw.IsValid cursor.text ⟨answer.2⟩) ∧
      (lexer.position :: (lexer.answers requests).map (·.2)).Pairwise (· ≤ ·) := by
  induction requests generalizing cursor lexer with
  | nil => exact ⟨fun _ member => absurd member List.not_mem_nil, List.pairwise_singleton _ _⟩
  | cons request requests ih =>
    obtain ⟨after, -, later, same, goes⟩ := follows.answer? request
    obtain ⟨valid, ordered⟩ := ih later
    rw [same] at valid
    rw [← follows.position, ← later.position] at goes
    rw [Lexer.answers_cons, List.map_cons]
    refine ⟨List.forall_mem_cons.mpr ⟨same ▸ later.isValid, valid⟩,
      List.pairwise_cons.mpr ⟨?_, ordered⟩⟩
    refine List.forall_mem_cons.mpr ⟨goes, fun position member => ?_⟩
    exact Nat.le_trans goes ((List.pairwise_cons.mp ordered).1 position member)

end Follows

end Cursor

/-- Whatever a lexer is asked and however often, behind faults and behind the end too, its positions lie
between characters of the text and never decrease. A cursor that cuts the text at these positions answers
as the lexer does, so that no cut of it is outside the text, inside a character or backwards. -/
theorem Lexer.positions_answers (text : String) (requests : List Request) :
    (Cursor.ofText text).answers? requests = some ((ofText text).answers requests) ∧
    (∀ answer ∈ (ofText text).answers requests,
      answer.2 ≤ text.utf8ByteSize ∧ String.Pos.Raw.IsValid text ⟨answer.2⟩) ∧
    (0 :: ((ofText text).answers requests).map (·.2)).Pairwise (· ≤ ·) := by
  have follows : (Cursor.ofText text).Follows (ofText text) :=
    ⟨⟨[], rfl, rfl⟩, rfl, rfl⟩
  obtain ⟨valid, ordered⟩ := follows.positions requests
  exact ⟨follows.answers? requests,
    fun answer member => ⟨(valid answer member).le_utf8ByteSize, valid answer member⟩, ordered⟩

end TableFormula
