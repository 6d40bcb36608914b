import Mathlib.Logic.ExistsUnique
import TableFormula.Proofs.LexerStream

namespace TableFormula

open Text

namespace TokenStream

theorem token_skip (stream : TokenStream) (taken count : Nat) :
    (stream.skip taken).token count = stream.token (taken + count) := by
  rw [token, token, skip, List.getElem?_drop]

theorem skip_skip (stream : TokenStream) (taken count : Nat) :
    (stream.skip taken).skip count = stream.skip (taken + count) := by
  rw [skip, skip, skip, List.drop_drop]

/-- The tokens of a stream that does not name its end are the answers before the first other one. -/
theorem eq_of_token {a b : TokenStream} (cleanA : .endOfInput ∉ a.tokens)
    (cleanB : .endOfInput ∉ b.tokens) (same : ∀ taken, a.token taken = b.token taken) : a = b := by
  have proper : ∀ {stream : TokenStream}, .endOfInput ∉ stream.tokens → ∀ taken token,
      stream.tokens[taken]? = some token ↔
        stream.token taken = .ok token ∧ token ≠ .endOfInput := by
    intro stream clean taken token
    unfold TokenStream.token
    cases found : stream.tokens[taken]? with
    | some other =>
      have member := List.mem_of_getElem? found
      simp only [Option.some.injEq, Except.ok.injEq]
      exact ⟨fun same => ⟨same, fun atEnd => clean (atEnd ▸ same ▸ member)⟩, And.left⟩
    | none =>
      refine ⟨nofun, fun ⟨given, more⟩ => ?_⟩
      cases ends : stream.fault with
      | none =>
        rw [ends] at given
        exact absurd (Except.ok.inj given).symm more
      | some fault =>
        rw [ends] at given
        cases given
  have tokens : a.tokens = b.tokens := by
    refine List.ext_getElem? fun taken => Option.ext fun token => ?_
    rw [proper cleanA, proper cleanB, same]
  have ends := same b.tokens.length
  obtain ⟨_, faultA⟩ := a
  obtain ⟨_, faultB⟩ := b
  obtain rfl := tokens
  simp only [token, List.getElem?_eq_none (Nat.le_refl _)] at ends
  rw [ending_injective ends]

end TokenStream

namespace Lexer

/-- The lexer after some requests. -/
def after (lexer : Lexer) (requests : List Request) : Lexer :=
  requests.foldl (fun lexer request => (lexer.answer request).2) lexer

theorem answers_cons (lexer : Lexer) (request : Request) (requests : List Request) :
    lexer.answers (request :: requests) =
      ((lexer.answer request).1, (lexer.answer request).2.position) ::
        (lexer.answer request).2.answers requests := rfl

theorem length_answers (lexer : Lexer) (requests : List Request) :
    (lexer.answers requests).length = requests.length := by
  induction requests generalizing lexer with
  | nil => rfl
  | cons request requests ih => rw [answers_cons, List.length_cons, List.length_cons, ih]

theorem answers_append (lexer : Lexer) (before later : List Request) :
    lexer.answers (before ++ later) =
      lexer.answers before ++ (lexer.after before).answers later := by
  induction before generalizing lexer with
  | nil => rfl
  | cons request before ih =>
    rw [List.cons_append, answers_cons, answers_cons, ih, List.cons_append]
    rfl

theorem after_shows {lexer : Lexer} {stream : TokenStream} (shows : lexer.Shows stream)
    (requests : List Request) :
    (lexer.after requests).Shows (stream.skip (requests.count .next)) := by
  induction requests generalizing lexer stream with
  | nil => exact shows
  | cons request requests ih =>
    have later := ih (answer_shows shows request).2
    rw [TokenStream.skip_skip] at later
    have counted : (request :: requests).count .next = request.takes + requests.count .next := by
      cases request with
      | peek => rw [List.count_cons_of_ne (by decide), Request.takes, Nat.zero_add]
      | next => rw [List.count_cons_self, Request.takes, Nat.add_comm]
    rwa [counted]

theorem answer_after_eq_token {lexer : Lexer} {stream : TokenStream} (shows : lexer.Shows stream)
    (before : List Request) (request : Request) :
    ((lexer.after before).answer request).1 = stream.token (before.count .next) := by
  rw [(answer_shows (after_shows shows before) request).1, TokenStream.token_skip, Nat.add_zero]

theorem answers_eq_token (text : String) (before : List Request) (request : Request)
    (later : List Request) :
    ((ofText text).answers (before ++ request :: later))[before.length]?.map (·.1) =
      some ((TokenStream.ofText text).token (before.count .next)) := by
  have shows : (ofText text).Shows (.ofText text) := rfl
  rw [answers_append, List.getElem?_append_right (Nat.le_of_eq (length_answers _ _)), length_answers,
    Nat.sub_self, answers_cons, List.getElem?_cons_zero, Option.map_some,
    answer_after_eq_token shows before request]

/-- For each text there is one list of tokens and one end, and whatever a lexer is asked before and
afterwards, it answers with the token, or the end, that the tokens taken so far lead to. So it shows
what it gives next, however often. -/
theorem answers_ofText (text : String) :
    (∃! stream : TokenStream, .endOfInput ∉ stream.tokens ∧
      ∀ (before : List Request) (request : Request) (later : List Request),
        ((ofText text).answers (before ++ request :: later))[before.length]?.map (·.1) =
          some (stream.token (before.count .next))) ∧
    ∀ (before : List Request) (peeks : Nat),
      ((ofText text).after (before ++ List.replicate peeks .peek)).peek.1 =
          ((ofText text).after before).next.1 ∧
        ((ofText text).after (before ++ List.replicate peeks .peek)).next.1 =
          ((ofText text).after before).next.1 := by
  have proper : .endOfInput ∉ (TokenStream.ofText text).tokens :=
    fun member => TokenStream.wellFormed_of_mem .endOfInput member
  refine ⟨⟨.ofText text, ⟨proper, answers_eq_token text⟩, ?_⟩, ?_⟩
  · rintro other ⟨clean, answers⟩
    refine TokenStream.eq_of_token clean proper fun taken => ?_
    have same := (answers (List.replicate taken .next) .next []).symm.trans
      (answers_eq_token text (List.replicate taken .next) .next [])
    rw [List.count_replicate_self] at same
    exact Option.some.inj same
  · intro before peeks
    have shows : (ofText text).Shows (.ofText text) := rfl
    have counted : (before ++ List.replicate peeks Request.peek).count .next =
        before.count .next := by
      rw [List.count_append, List.count_replicate, if_neg (by decide), Nat.add_zero]
    have asked := answer_after_eq_token shows (before ++ List.replicate peeks .peek)
    rw [counted] at asked
    have given := answer_after_eq_token shows before .next
    exact ⟨(asked .peek).trans given.symm, (asked .next).trans given.symm⟩

end Lexer

end TableFormula
