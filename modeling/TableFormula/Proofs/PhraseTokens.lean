import Mathlib.Data.List.Chain
import TableFormula.Phrase.Basic
import TableFormula.Proofs.WrittenText

/-!
No two neighbours among the tokens of a phrase run together. The induction is over phrases between two
symbols: every part of a phrase stands so.
-/

namespace TableFormula

open Text

def Token.Apart (token next : Token) : Prop := token.fuses next = false

namespace Token

theorem symbol_apart (text : String) {next : Token} (other : next ≠ .symbol "==") :
    (symbol text).Apart next := by
  unfold Apart fuses
  split <;> simp_all

theorem fuses_name (token : Token) (a b : String) : token.fuses (name a) = token.fuses (name b) := by
  cases token with
  | symbol text =>
    have apart : ∀ word, (symbol text).fuses (name word) = false := fun word =>
      symbol_apart text (by simp)
    rw [apart, apart]
  | name | string | number | endOfInput => rfl

theorem apart_symbol {token : Token} (less : token ≠ .symbol "<") (greater : token ≠ .symbol ">")
    (text : String) : token.Apart (.symbol text) := by
  unfold Apart fuses
  split <;> simp_all

end Token

/-- Whether tokens can stand together between any two symbols. -/
def Embeds (tokens : List Token) : Prop :=
  ∀ before behind : String,
    List.IsChain Token.Apart (.symbol before :: (tokens ++ [.symbol behind]))

namespace Embeds

theorem single {token : Token} (other : token ≠ .symbol "==") (less : token ≠ .symbol "<")
    (greater : token ≠ .symbol ">") : Embeds [token] := fun before behind =>
  .cons_cons (Token.symbol_apart before other)
    (List.isChain_pair.mpr (Token.apart_symbol less greater behind))

theorem append {first second : List Token} (embedsFirst : Embeds first) (text : String)
    (embedsSecond : Embeds second) : Embeds (first ++ .symbol text :: second) := by
  intro before behind
  have joined := List.isChain_cons_split.mpr ⟨embedsFirst before text, embedsSecond text behind⟩
  rwa [List.append_assoc]

theorem cons {tokens : List Token} (embeds : Embeds tokens) (text : String) (other : text ≠ "==") :
    Embeds (.symbol text :: tokens) := by
  intro before behind
  have apart : (Token.symbol before).Apart (.symbol text) :=
    Token.symbol_apart before fun same => other (Token.symbol.inj same)
  exact .cons_cons apart (embeds text behind)

theorem concat {tokens : List Token} (embeds : Embeds tokens) (text : String) (less : text ≠ "<")
    (greater : text ≠ ">") : Embeds (tokens ++ [.symbol text]) := by
  intro before behind
  have apart : (Token.symbol text).Apart (.symbol behind) :=
    Token.apart_symbol (fun same => less (Token.symbol.inj same))
      (fun same => greater (Token.symbol.inj same)) behind
  have joined := List.isChain_cons_split.mpr ⟨embeds before text, List.isChain_pair.mpr apart⟩
  rwa [List.append_assoc]

theorem name {tokens : List Token} (text opening : String) (embeds : Embeds (.symbol opening :: tokens)) :
    Embeds (.name text :: .symbol opening :: tokens) := by
  intro before behind
  have later := (embeds opening behind).tail
  have apart : (Token.name text).Apart (.symbol opening) := rfl
  exact .cons_cons (Token.symbol_apart before nofun) (.cons_cons apart later)

theorem apart {tokens : List Token} (embeds : Embeds tokens) : tokens.IsChain Token.Apart :=
  (embeds "(" ")").tail.left_of_append

end Embeds

namespace Phrase

theorem embeds (phrase : Phrase) : Embeds phrase.tokens := by
  induction phrase with
  | number digits => exact .single nofun nofun nofun
  | bare name => exact .single nofun nofun nofun
  | reference kind name qualifier =>
    have object : Embeds [.string name] := .single nofun nofun nofun
    have last : Embeds [.name qualifier] := .single nofun nofun nofun
    have closed := last.concat ")" (by decide) (by decide)
    exact ((object.append "." closed).cons "(" (by decide)).name kind "("
  | call fn first second ihFirst ihSecond =>
    have closed := ihSecond.concat ")" (by decide) (by decide)
    exact ((ihFirst.append "," closed).cons "(" (by decide)).name fn.symbol "("
  | group inner ih => exact (ih.concat ")" (by decide) (by decide)).cons "(" (by decide)
  | prefixed op operand ih => exact ih.cons op.symbol (by cases op <;> decide)
  | between op left right ihLeft ihRight => exact ihLeft.append op.symbol ihRight
  | conditional condition first second ihCondition ihFirst ihSecond =>
    exact ihCondition.append Conditional.symbol (ihFirst.append Conditional.marker ihSecond)

end Phrase

namespace SpacedTokens

theorem spaced_of_apart {tokens : SpacedTokens} (blank : ∀ pair ∈ tokens, pair.1.all isBlank = true)
    (apart : (tokens.map (·.2)).IsChain Token.Apart) : tokens.Spaced := by
  induction tokens with
  | nil => trivial
  | cons first tokens ih =>
    obtain ⟨gap, token⟩ := first
    obtain ⟨gapBlank, later⟩ := List.forall_mem_cons.mp blank
    cases tokens with
    | nil => exact gapBlank
    | cons next tokens =>
      obtain ⟨apartNext, apartLater⟩ := List.isChain_cons_cons.mp apart
      exact ⟨gapBlank, fun fused => absurd fused (by rw [apartNext]; decide), ih later apartLater⟩

theorem written_tight (tokens : List Token) (rest : List Char) :
    written (tokens.map ([], ·)) rest = tokens.flatMap Token.spelling ++ rest := by
  induction tokens with
  | nil => rfl
  | cons token tokens ih =>
    rw [List.map_cons, written, ih, List.flatMap_cons, List.nil_append, List.append_assoc]

end SpacedTokens

/-- Tokens that stand apart are read back without blanks between them. -/
theorem TokenStream.ofChars_tight {position : Nat} {tokens : List Token} {rest : List Char}
    (apart : tokens.IsChain Token.Apart) (wellFormed : ∀ token ∈ tokens, token.WellFormed)
    (ends : ∀ token ∈ tokens.getLast?, token.EndsBefore rest) :
    ofChars position (tokens.flatMap Token.spelling ++ rest) =
      append { tokens } (ofChars (position + byteSize (tokens.flatMap Token.spelling)) rest) := by
  let tight : SpacedTokens := tokens.map ([], ·)
  have same : tight.map (·.2) = tokens := by rw [List.map_map]; exact List.map_id tokens
  have spaced : tight.Spaced :=
    SpacedTokens.spaced_of_apart (List.forall_mem_map.mpr fun _ _ => rfl) (same.symm ▸ apart)
  have found : ofChars position (tight.written rest) = _ :=
    SpacedTokens.ofChars_written_append spaced (List.forall_mem_map.mpr wellFormed) (by
      rw [List.getLast?_map]
      rintro _ member
      obtain ⟨token, last, rfl⟩ := Option.map_eq_some_iff.mp member
      exact ends token last)
  rw [SpacedTokens.written_tight, SpacedTokens.written_tight, List.append_nil, same] at found
  exact found

end TableFormula
