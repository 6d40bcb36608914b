import TableFormula.Lexer

/-!
A cursor reads a text by byte positions alone. It keeps the whole text and cuts it at its place for
each character that it looks at and for each token, and it goes on by the bytes of a character or by a
fixed number of bytes. A cut fails where it is out of the text, inside a character or backwards, and a
request to a cursor fails with its first cut that does.
-/

namespace TableFormula

open Text

/-- The characters from one byte position up to another. -/
def Text.cut? (text : String) (start stop : Nat) : Option (List Char) :=
  if start ≤ stop ∧ String.Pos.Raw.IsValid text ⟨start⟩ ∧ String.Pos.Raw.IsValid text ⟨stop⟩ then
    some (String.Pos.Raw.extract text ⟨start⟩ ⟨stop⟩).toList
  else none

example : cut? "ж1" 2 3 = some ['1'] ∧ cut? "ж1" 1 3 = none ∧ cut? "ж1" 2 4 = none := by decide

theorem Text.lt_of_cut? {text : String} {start stop : Nat} {cs : List Char}
    (found : cut? text start stop = some cs) (more : cs ≠ []) : start < stop := by
  unfold cut? at found
  split at found
  · rename_i inside
    refine Nat.lt_of_le_of_ne inside.1 fun same => more ?_
    obtain rfl := Option.some.inj found
    have empty : String.Pos.Raw.extract text ⟨start⟩ ⟨stop⟩ = "" :=
      if_pos (Nat.le_of_eq same.symm)
    rw [empty]
    rfl
  · cases found

/-- A lexer that keeps the whole text. -/
structure Cursor where
  text : String
  position : Nat := 0
  /-- A token that was read and not taken. -/
  peeked : Option Token := none

namespace Cursor

def ofText (text : String) : Cursor := { text }

/-- The text from the cursor's place on. -/
def rest? (cursor : Cursor) : Option (List Char) :=
  cut? cursor.text cursor.position cursor.text.utf8ByteSize

def current? (cursor : Cursor) : Option (Option Char) := cursor.rest?.map (·.head?)

def afterCurrent? (cursor : Cursor) : Option (Option Char) := cursor.rest?.map (·[1]?)

def forward (cursor : Cursor) (bytes : Nat) : Cursor :=
  { cursor with position := cursor.position + bytes }

theorem lt_of_current? {cursor : Cursor} {c : Char} (found : cursor.current? = some (some c)) :
    cursor.position < cursor.text.utf8ByteSize := by
  obtain ⟨cs, cut, head⟩ := Option.map_eq_some_iff.mp found
  exact lt_of_cut? cut fun none => by rw [none] at head; cases head

/-- Goes past the characters that `p` holds of, and looks at each anew. -/
def skipWhile? (p : Char → Bool) (cursor : Cursor) : Option Cursor :=
  match _ : cursor.current? with
  | none => none
  | some none => some cursor
  | some (some c) => if p c then (cursor.forward c.utf8Size).skipWhile? p else some cursor
termination_by cursor.text.utf8ByteSize - cursor.position
decreasing_by
  have inside := lt_of_current? ‹_›
  have := c.utf8Size_pos
  simp only [forward]
  omega

theorem skipWhile?_eq (p : Char → Bool) (cursor : Cursor) : cursor.skipWhile? p = (do
    match ← cursor.current? with
    | none => some cursor
    | some c => if p c then (cursor.forward c.utf8Size).skipWhile? p else some cursor) := by
  rw [skipWhile?]
  split
  all_goals
    rename_i found
    rw [found]
    rfl

/-- A symbol takes the bytes of its character, or two bytes with an equals sign. -/
def readSymbol? (c : Char) (cursor : Cursor) : Option (Except LexFault Token × Cursor) := do
  let extended := (← cursor.afterCurrent?) == some '='
  if c ∈ Token.incompleteChars ∧ !extended then
    return (.error (.invalidOperator c cursor.position), cursor)
  else if c ∈ Token.comparisonChars ∧ extended then
    return (.ok (.symbol (String.ofList [c, '='])), cursor.forward 2)
  else return (.ok (.symbol (String.ofList [c])), cursor.forward c.utf8Size)

/-- A run of characters that `p` holds of, cut out when its end was found. -/
def readRun? (token : String → Token) (p : Char → Bool) (cursor : Cursor) :
    Option (Except LexFault Token × Cursor) := do
  let behind ← cursor.skipWhile? p
  let run ← cut? cursor.text cursor.position behind.position
  return (.ok (token (String.ofList run)), behind)

/-- A string, whose two quotes take one byte each. -/
def readString? (cursor : Cursor) : Option (Except LexFault Token × Cursor) := do
  let start := cursor.position + 1
  let body ← cut? cursor.text start cursor.text.utf8ByteSize
  if Token.quoteMark ∈ body then
    let bytes := byteSize (body.takeWhile (· != Token.quoteMark))
    let string ← cut? cursor.text start (start + bytes)
    return (.ok (.string (String.ofList string)), { cursor with position := start + bytes + 1 })
  else return (.error (.unterminatedString cursor.position), cursor)

/-- Reads the token at the cursor's place, which is not a blank. -/
def read? (cursor : Cursor) : Option (Except LexFault Token × Cursor) := do
  match ← cursor.current? with
  | none => return (.ok .endOfInput, cursor)
  | some c =>
    if c ∈ Token.symbolChars then cursor.readSymbol? c
    else if c.isDigit then cursor.readRun? .number Char.isDigit
    else if c = Token.quoteMark then cursor.readString?
    else if isLetter c then cursor.readRun? .name isNameChar
    else return (.error (.invalidCharacter c cursor.position), cursor)

def scan? (cursor : Cursor) : Option (Except LexFault Token × Cursor) := do
  (← cursor.skipWhile? isBlank).read?

def peek? (cursor : Cursor) : Option (Except LexFault Token × Cursor) :=
  match cursor.peeked with
  | some token => some (.ok token, cursor)
  | none => do
    match ← cursor.scan? with
    | (.ok token, cursor) => return (.ok token, { cursor with peeked := some token })
    | (.error fault, cursor) => return (.error fault, cursor)

def next? (cursor : Cursor) : Option (Except LexFault Token × Cursor) :=
  match cursor.peeked with
  | some token => some (.ok token, { cursor with peeked := none })
  | none => cursor.scan?

def answer? (cursor : Cursor) : Lexer.Request → Option (Except LexFault Token × Cursor)
  | .peek => cursor.peek?
  | .next => cursor.next?

/-- The answers to requests in turn, each with the position after it, unless a cut fails. -/
def answers? : Cursor → List Lexer.Request → Option (List (Except LexFault Token × Nat))
  | _, [] => some []
  | cursor, request :: requests => do
    let (result, cursor) ← cursor.answer? request
    let later ← cursor.answers? requests
    return (result, cursor.position) :: later

end Cursor

end TableFormula
