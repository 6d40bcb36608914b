import TableFormula.Lexer

/-!
The grammar reads from any source that can show its next token. Looking gives two sources: one that
still holds the token and shows it again, and one behind it. A source has a bound on the number of
its tokens, and going behind a token lowers it.
-/

namespace TableFormula

structure Lookahead (σ : Type) where
  token : Token
  held : σ
  /-- The source behind the token. -/
  rest : σ

class TokenSource (σ : Type) where
  look : σ → Except LexFault (Lookahead σ)
  /-- A bound on the number of tokens before the end. -/
  left : σ → Nat
  look_held {source : σ} {ahead : Lookahead σ} :
    look source = .ok ahead → look ahead.held = .ok ahead
  left_held {source : σ} {ahead : Lookahead σ} :
    look source = .ok ahead → left ahead.held ≤ left source
  left_rest {source : σ} {ahead : Lookahead σ} :
    look source = .ok ahead → ahead.token ≠ .endOfInput → left ahead.rest < left source

namespace Lexer

/-- The next token, with the lexer that keeps it and the lexer that took it. -/
def look (lexer : Lexer) : Except LexFault (Lookahead Lexer) :=
  match lexer.peek with
  | (.error fault, _) => .error fault
  | (.ok token, held) => .ok { token, held, rest := held.next.2 }

theorem next_of_peeked {lexer : Lexer} {token : Token} (h : lexer.peeked = some token) :
    lexer.next = (.ok token, { lexer with peeked := none }) := by
  simp only [next, h]

theorem look_eq_ok {lexer : Lexer} {ahead : Lookahead Lexer} (h : lexer.look = .ok ahead) :
    lexer.peek = (.ok ahead.token, ahead.held) ∧
      ahead.held.next = (.ok ahead.token, ahead.rest) := by
  unfold look at h
  split at h
  · cases h
  · rename_i token held found
    cases h
    exact ⟨found, by rw [next_of_peeked (left_peek found).1]⟩

theorem look_held {lexer : Lexer} {ahead : Lookahead Lexer} (h : lexer.look = .ok ahead) :
    ahead.held.look = .ok ahead := by
  obtain ⟨peeked, taken⟩ := look_eq_ok h
  have kept := (left_peek peeked).1
  simp only [look, peek, kept, taken]

instance : TokenSource Lexer where
  look := look
  left := left
  look_held := look_held
  left_held h := (left_peek (look_eq_ok h).1).2
  left_rest h more :=
    Nat.lt_of_lt_of_le (left_next (look_eq_ok h).2 more) (left_peek (look_eq_ok h).1).2

end Lexer

end TableFormula
