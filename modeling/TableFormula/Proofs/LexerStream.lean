import TableFormula.Proofs.ReaderSimulation
import TableFormula.Proofs.TextStream

/-! A lexer shows the tokens of the stream of its text, which was read beforehand. -/

namespace TableFormula

open Text

namespace TokenStream

/-- What comes when some tokens were taken. The end of the tokens, or their fault, comes again and
again. -/
def token (stream : TokenStream) (taken : Nat) : Except LexFault Token :=
  match stream.tokens[taken]? with
  | some token => .ok token
  | none => ending stream.fault

def skip (stream : TokenStream) (taken : Nat) : TokenStream :=
  { stream with tokens := stream.tokens.drop taken }

theorem look_eq_token (stream : TokenStream) : stream.look =
    match stream.token 0 with
    | .error fault => .error fault
    | .ok token => .ok { token, held := stream, rest := stream.skip 1 } := by
  obtain ⟨tokens, fault⟩ := stream
  cases tokens with
  | cons token tokens => rfl
  | nil => cases fault <;> rfl

end TokenStream

namespace Lexer

/-- Whether a lexer has the tokens of a stream still to give. A lexer keeps the end of its text only
where the text ends. -/
def Shows (lexer : Lexer) (stream : TokenStream) : Prop :=
  match lexer.peeked with
  | none => stream = .ofChars lexer.position lexer.rest
  | some token =>
    if token = .endOfInput then lexer.rest = [] ∧ stream = { tokens := [] }
    else stream = (TokenStream.ofChars lexer.position lexer.rest).cons token

/-- How many tokens a request takes. -/
def Request.takes : Request → Nat
  | .peek => 0
  | .next => 1

/-- The lexer that keeps the token that was scanned, if there is one. -/
def keep (result : Except LexFault Token) (scanned : Lexer) : Lexer :=
  match result with
  | .ok token => { scanned with peeked := some token }
  | .error _ => scanned

theorem peek_of_empty {lexer : Lexer} (empty : lexer.peeked = none) :
    lexer.peek = (lexer.scan.1, keep lexer.scan.1 lexer.scan.2) := by
  simp only [peek, empty]
  cases lexer.scan with
  | mk result scanned => cases result <;> rfl

/-- A lexer that keeps no token scans the next one of its stream. A fault leaves it before the
fault. -/
theorem scan_shows {lexer : Lexer} (empty : lexer.peeked = none) {stream : TokenStream}
    (shows : lexer.Shows stream) :
    lexer.scan.1 = stream.token 0 ∧ lexer.scan.2.Shows (stream.skip 1) ∧
      (keep lexer.scan.1 lexer.scan.2).Shows stream := by
  obtain ⟨rest, position, peeked⟩ := lexer
  cases empty
  simp only [Shows] at shows
  rw [TokenStream.ofChars_eq] at shows
  simp only [scan, skipBlanks]
  cases found : Token.read (position + byteSize (rest.takeWhile isBlank))
      (rest.dropWhile isBlank) with
  | error fault =>
    rw [found] at shows
    subst shows
    have again := TokenStream.ofChars_eq position rest
    rw [found, TokenStream.ofChars_dropWhile] at again
    exact ⟨rfl, again.symm, again.symm⟩
  | ok read =>
    obtain ⟨token, later⟩ := read
    rw [found] at shows
    dsimp only at shows
    by_cases atEnd : token = .endOfInput
    · rw [if_pos atEnd] at shows
      subst shows atEnd
      have none := Token.eq_nil_of_read_endOfInput found
      rw [none] at found
      cases found
      exact ⟨rfl, (TokenStream.ofChars_blank rfl).symm, rfl, rfl⟩
    · rw [if_neg atEnd] at shows
      subst shows
      refine ⟨rfl, rfl, ?_⟩
      simp only [Shows, keep, if_neg atEnd]

theorem answer_shows {lexer : Lexer} {stream : TokenStream} (shows : lexer.Shows stream)
    (request : Request) :
    (lexer.answer request).1 = stream.token 0 ∧
      (lexer.answer request).2.Shows (stream.skip request.takes) := by
  cases kept : lexer.peeked with
  | some token =>
    -- A token that is kept was shown before.
    have first : stream.token 0 = .ok token ∧
        ({ lexer with peeked := none } : Lexer).Shows (stream.skip 1) := by
      have shows := shows
      simp only [Shows, kept] at shows
      split at shows
      · rename_i atEnd
        obtain ⟨ended, rfl⟩ := shows
        subst atEnd
        refine ⟨rfl, ?_⟩
        simp only [Shows, ended]
        exact (TokenStream.ofChars_blank rfl).symm
      · subst shows
        exact ⟨rfl, rfl⟩
    cases request with
    | peek => simpa only [answer, peek, kept] using ⟨first.1.symm, shows⟩
    | next => simpa only [answer, next, kept] using ⟨first.1.symm, first.2⟩
  | none =>
    obtain ⟨given, taken, keeps⟩ := scan_shows kept shows
    cases request with
    | peek => simpa only [answer, peek_of_empty kept] using ⟨given, keeps⟩
    | next => simpa only [answer, next, kept] using ⟨given, taken⟩

theorem look_shows {lexer : Lexer} {stream : TokenStream} (h : lexer.Shows stream) :
    Refines (fun _ => False) (· = ·) (LookaheadAlike Shows) lexer.look stream.look := by
  obtain ⟨given, kept⟩ := answer_shows h .peek
  rw [TokenStream.look_eq_token]
  simp only [answer] at given kept
  unfold look
  cases peeked : lexer.peek with
  | mk result held =>
    rw [peeked] at given kept
    rw [← given]
    cases result with
    | error fault => exact .error rfl
    | ok token => exact .ok ⟨rfl, kept, (answer_shows kept .next).2⟩

end Lexer

theorem parseFor_eq_readFormula (parser : Parser) (owner : Owner) {text : String}
    (nonBlank : text.toList.all isBlank = false) :
    parser.parseFor owner text =
      readFormula parser.options owner (TokenStream.ofChars 0 (trim text.toList)) := by
  unfold Parser.parseFor
  split
  · rename_i blank
    rw [trim_eq_nil_iff.mp blank] at nonBlank
    cases nonBlank
  · have shows : ({ rest := trim text.toList } : Lexer).Shows (.ofChars 0 (trim text.toList)) := rfl
    have same := readFormula_agrees parser.options owner Lexer.look_shows shows
    exact same.eq_or_shallow.resolve_left fun stopped => absurd stopped.1 (Nat.lt_irrefl _)

end TableFormula
