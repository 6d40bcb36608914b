import TableFormula.Text.Blank
import TableFormula.Text.Letter
import TableFormula.Token.Basic
import TableFormula.Token.Fault

/-! The first character of a text decides the kind of its first token, which goes as far as it can. -/

namespace TableFormula.Token

open Text

def symbolChars : List Char :=
  ['^', '=', '!', '>', '<', '+', '-', '/', '*', '.', ',', ':', '?', '(', ')']

/-- The symbols that an equals sign extends. -/
def comparisonChars : List Char := ['=', '!', '<', '>']

/-- The symbols that need an equals sign. -/
def incompleteChars : List Char := ['=', '!']

def readSymbol (position : Nat) (c : Char) (cs : List Char) :
    Except LexFault (Token × List Char) :=
  match cs with
  | '=' :: rest =>
    if c ∈ comparisonChars then .ok (symbol (String.ofList [c, '=']), rest)
    else .ok (symbol (String.ofList [c]), cs)
  | _ =>
    if c ∈ incompleteChars then .error (.invalidOperator c position)
    else .ok (symbol (String.ofList [c]), cs)

def readString (position : Nat) (cs : List Char) : Except LexFault (Token × List Char) :=
  match cs.dropWhile (· != quoteMark) with
  | [] => .error (.unterminatedString position)
  | _ :: rest => .ok (string (String.ofList (cs.takeWhile (· != quoteMark))), rest)

/-- Reads the first token of a text that does not begin with a blank, and gives the text behind it.
Faults are reported at `position`. -/
def read (position : Nat) : List Char → Except LexFault (Token × List Char)
  | [] => .ok (endOfInput, [])
  | c :: cs =>
    if c ∈ symbolChars then readSymbol position c cs
    else if c.isDigit then
      .ok (number (String.ofList (c :: cs.takeWhile Char.isDigit)), cs.dropWhile Char.isDigit)
    else if c = quoteMark then readString position cs
    else if isLetter c then
      .ok (name (String.ofList (c :: cs.takeWhile isNameChar)), cs.dropWhile isNameChar)
    else .error (.invalidCharacter c position)

theorem spelling_of_readSymbol {position : Nat} {c : Char} {cs rest : List Char} {token : Token}
    (h : readSymbol position c cs = .ok (token, rest)) : token.spelling ++ rest = c :: cs := by
  unfold readSymbol at h
  repeat' split at h
  all_goals
    cases h
    try simp [spelling, text]

theorem spelling_of_readString {position : Nat} {cs rest : List Char} {token : Token}
    (h : readString position cs = .ok (token, rest)) :
    token.spelling ++ rest = quoteMark :: cs := by
  unfold readString at h
  split at h
  · cases h
  · rename_i mark rest found
    cases h
    have closing : mark = quoteMark := by
      have := List.head?_dropWhile_not (· != quoteMark) cs
      rw [found] at this
      simpa using this
    subst closing
    have whole := List.takeWhile_append_dropWhile (p := (· != quoteMark)) (l := cs)
    rw [found] at whole
    simp [spelling, whole]

theorem spelling_of_read {position : Nat} {cs rest : List Char} {token : Token}
    (h : read position cs = .ok (token, rest)) : token.spelling ++ rest = cs := by
  cases cs with
  | nil => cases h; rfl
  | cons c cs =>
    rw [read] at h
    repeat' split at h
    · exact spelling_of_readSymbol h
    · cases h; simp [spelling, text, List.takeWhile_append_dropWhile]
    · rename_i _ _ mark
      rw [mark]
      exact spelling_of_readString h
    · cases h; simp [spelling, text, List.takeWhile_append_dropWhile]
    · cases h

theorem spelling_ne_nil_of_read {position : Nat} {cs rest : List Char} {token : Token}
    (h : read position cs = .ok (token, rest)) (more : token ≠ endOfInput) :
    token.spelling ≠ [] := by
  cases cs with
  | nil => cases h; exact absurd rfl more
  | cons c cs =>
    rw [read, readSymbol.eq_def, readString] at h
    repeat' split at h
    all_goals
      cases h
      try simp [spelling, text]

theorem length_lt_of_read {position : Nat} {cs rest : List Char} {token : Token}
    (h : read position cs = .ok (token, rest)) (more : token ≠ endOfInput) :
    rest.length < cs.length := by
  have some := List.length_pos_iff.mpr (spelling_ne_nil_of_read h more)
  have whole := congrArg List.length (spelling_of_read h)
  rw [List.length_append] at whole
  omega

theorem length_le_of_read {position : Nat} {cs rest : List Char} {token : Token}
    (h : read position cs = .ok (token, rest)) : rest.length ≤ cs.length := by
  have whole := congrArg List.length (spelling_of_read h)
  rw [List.length_append] at whole
  omega

end TableFormula.Token
