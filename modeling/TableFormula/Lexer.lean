import TableFormula.Text.Bytes
import TableFormula.Token.Read

/-!
A lexer gives the tokens of a text one at a time and keeps a token that was looked at until it is
taken. A fault does not move the lexer past the blanks before it, so that each later attempt meets the
same fault.
-/

namespace TableFormula

open Text

structure Lexer where
  /-- The text that no token was read from yet. -/
  rest : List Char
  position : Nat := 0
  /-- A token that was read and not taken. -/
  peeked : Option Token := none

namespace Lexer

def ofText (text : String) : Lexer := { rest := text.toList }

def skipBlanks (lexer : Lexer) : Lexer :=
  { lexer with
    rest := lexer.rest.dropWhile isBlank
    position := lexer.position + byteSize (lexer.rest.takeWhile isBlank) }

def scan (lexer : Lexer) : Except LexFault Token × Lexer :=
  let lexer := lexer.skipBlanks
  match Token.read lexer.position lexer.rest with
  | .error fault => (.error fault, lexer)
  | .ok (token, rest) =>
    (.ok token, { lexer with rest, position := lexer.position + byteSize token.spelling })

def peek (lexer : Lexer) : Except LexFault Token × Lexer :=
  match lexer.peeked with
  | some token => (.ok token, lexer)
  | none =>
    match lexer.scan with
    | (.ok token, lexer) => (.ok token, { lexer with peeked := some token })
    | (.error fault, lexer) => (.error fault, lexer)

def next (lexer : Lexer) : Except LexFault Token × Lexer :=
  match lexer.peeked with
  | some token => (.ok token, { lexer with peeked := none })
  | none => lexer.scan

/-- A bound on the number of tokens that the lexer can still give before the end. -/
def left (lexer : Lexer) : Nat :=
  lexer.rest.length + if lexer.peeked.any (· != .endOfInput) then 1 else 0

@[simp] theorem peeked_scan (lexer : Lexer) : lexer.scan.2.peeked = lexer.peeked := by
  simp only [scan]; split <;> rfl

theorem length_skipBlanks_le (lexer : Lexer) :
    lexer.skipBlanks.rest.length ≤ lexer.rest.length :=
  (List.dropWhile_suffix _).length_le

theorem length_scan {lexer after : Lexer} {token : Token} (h : lexer.scan = (.ok token, after)) :
    after.rest.length + (if token != .endOfInput then 1 else 0) ≤ lexer.rest.length := by
  have blanks := length_skipBlanks_le lexer
  simp only [scan] at h
  split at h
  · cases h
  · rename_i read rest found
    cases h
    dsimp only
    split
    · rename_i more
      have := Token.length_lt_of_read found (bne_iff_ne.mp more)
      omega
    · have := Token.length_le_of_read found
      omega

theorem left_peek {lexer after : Lexer} {token : Token} (h : lexer.peek = (.ok token, after)) :
    after.peeked = some token ∧ after.left ≤ lexer.left := by
  simp only [peek] at h
  split at h
  · rename_i kept
    cases h
    exact ⟨kept, Nat.le_refl _⟩
  · rename_i empty
    split at h
    · rename_i read lexer scanned
      cases h
      have := length_scan scanned
      refine ⟨rfl, ?_⟩
      simp only [left, Option.any_some, empty, Option.any_none]
      simpa using this
    · cases h

theorem left_next {lexer after : Lexer} {token : Token} (h : lexer.next = (.ok token, after))
    (more : token ≠ .endOfInput) : after.left < lexer.left := by
  simp only [next] at h
  split at h
  · rename_i kept
    cases h
    simp [left, kept, more]
  · rename_i empty
    have bound := length_scan h
    have still : after.peeked = none := by
      have := lexer.peeked_scan
      rwa [h, empty] at this
    rw [if_pos (bne_iff_ne.mpr more)] at bound
    simp only [left, still, empty, Option.any_none]
    omega

/-- The ways to ask a lexer for a token. -/
inductive Request where
  | peek
  | next
  deriving DecidableEq

def answer (lexer : Lexer) : Request → Except LexFault Token × Lexer
  | .peek => lexer.peek
  | .next => lexer.next

/-- The answers to requests in turn, each with the position after it. Faults end nothing. -/
def answers : Lexer → List Request → List (Except LexFault Token × Nat)
  | _, [] => []
  | lexer, request :: requests =>
    let (result, lexer) := lexer.answer request
    (result, lexer.position) :: lexer.answers requests

/-- At most `count` tokens, up to the end or the first fault, each with the position after it. -/
def take : Nat → Lexer → List (Except LexFault Token × Nat)
  | 0, _ => []
  | count + 1, lexer =>
    match lexer.next with
    | (.error fault, after) => [(.error fault, after.position)]
    | (.ok token, after) =>
      (.ok token, after.position) :: if token = .endOfInput then [] else after.take count

/-- The tokens up to the end or the first fault, which comes last, each with the position after
it. -/
def drain (lexer : Lexer) : List (Except LexFault Token × Nat) := lexer.take (lexer.left + 1)

theorem take_of_left_lt {lexer : Lexer} {m n : Nat} (hm : lexer.left < m) (hn : lexer.left < n) :
    lexer.take m = lexer.take n := by
  induction m generalizing lexer n with
  | zero => exact absurd hm (Nat.not_lt_zero _)
  | succ m ih =>
    cases n with
    | zero => exact absurd hn (Nat.not_lt_zero _)
    | succ n =>
      simp only [take]
      split
      · rfl
      · rename_i token after step
        split
        · rfl
        · rename_i more
          have := left_next step more
          rw [ih (n := n) (by omega) (by omega)]

theorem drain_eq (lexer : Lexer) : lexer.drain =
    match lexer.next with
    | (.error fault, after) => [(.error fault, after.position)]
    | (.ok token, after) =>
      (.ok token, after.position) :: if token = .endOfInput then [] else after.drain := by
  rw [drain, take]
  split
  · rfl
  · rename_i token after step
    split
    · rfl
    · rename_i more
      rw [drain, take_of_left_lt (left_next step more) (Nat.lt_succ_self _)]

end Lexer

end TableFormula
