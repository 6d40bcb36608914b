import TableFormula.Options
import TableFormula.Owner
import TableFormula.ParseError
import TableFormula.TokenSource

/-! The readers that need no other formula, and how many tokens they leave. -/

namespace TableFormula

open TokenSource

def Token.infixOp? : Token → Option InfixOp
  | .symbol text => InfixOp.ofSymbol? text
  | _ => none

/-- The value of a run of digits, if a word holds it. -/
def wordOfDigits? (digits : String) : Option Int64 :=
  let value := Nat.ofDigitChars 10 digits.toList 0
  if value < 0x8000000000000000 then some (Int64.ofNat value) else none

structure Parsed (σ : Type) where
  formula : Formula
  height : Nat
  source : σ

variable {σ : Type} [TokenSource σ]

/-- What was read of a source that had fewer than `bound` tokens left afterwards. -/
abbrev ParsedBelow (σ : Type) [TokenSource σ] (bound : Nat) :=
  { parsed : Parsed σ // left parsed.source < bound }

def leaf (formula : Formula) (source : σ) : Parsed σ := { formula, height := 1, source }

/-- A formula over parts of the given height, which may be too high. -/
def node (options : Options) (formula : Formula) (partHeight : Nat) (source : σ) :
    Except ParseError (Parsed σ) :=
  if partHeight + 1 > options.maxDepth then .error (.tooDeep options.maxDepth)
  else .ok { formula, height := partHeight + 1, source }

def lookahead (source : σ) : Except ParseError (Lookahead σ) :=
  match look source with
  | .ok ahead => .ok ahead
  | .error fault => .error (.lexical fault)

/-- Takes a token that the grammar fixes. -/
def expect (what : Expectation) (source : σ) : Except ParseError (Lookahead σ) := do
  let ahead ← lookahead source
  if what.accepts ahead.token then .ok ahead else .error (.expected what ahead.token)

def number (digits : String) (source : σ) : Except ParseError (Parsed σ) :=
  match wordOfDigits? digits with
  | some value => .ok (leaf (.constant value) source)
  | none => .error (.invalidNumber digits)

/-- The name that stands before `source`, which is no function if a parenthesis follows. -/
def bareName (owner : Owner) (name : String) (source : σ) : Except ParseError (Parsed σ) := do
  let ahead ← lookahead source
  if ahead.token.isSymbol "(" then .error (.unknownFunction name)
  else .ok (leaf (.property (owner.reference name)) ahead.held)

def takesInfix (least : Nat) (token : Token) : Option InfixOp :=
  token.infixOp?.filter (least ≤ ·.precedence)

def takesConditional (least : Nat) (token : Token) : Bool :=
  token.isSymbol Conditional.symbol && least ≤ Conditional.precedence

theorem lookahead_eq_ok {source : σ} {ahead : Lookahead σ} :
    lookahead source = .ok ahead ↔ look source = .ok ahead := by
  unfold lookahead
  cases look source <;> simp

theorem left_of_expect {what : Expectation} {source : σ} {ahead : Lookahead σ}
    (h : expect what source = .ok ahead) : left ahead.rest < left source := by
  unfold expect at h
  cases found : lookahead source with
  | error => simp [found, bind, Except.bind] at h
  | ok next =>
    simp only [found, bind, Except.bind] at h
    split at h
    · rename_i accepted
      cases h
      refine left_rest (lookahead_eq_ok.mp found) fun atEnd => ?_
      rw [atEnd, Expectation.not_accepts_endOfInput] at accepted
      cases accepted
    · cases h

omit [TokenSource σ] in
theorem source_of_node {options : Options} {formula : Formula} {partHeight : Nat} {source : σ}
    {parsed : Parsed σ} (h : node options formula partHeight source = .ok parsed) :
    parsed.source = source := by
  unfold node at h
  split at h
  · cases h
  · cases h; rfl

omit [TokenSource σ] in
theorem source_of_number {digits : String} {source : σ} {parsed : Parsed σ}
    (h : number digits source = .ok parsed) : parsed.source = source := by
  unfold number at h
  split at h
  · cases h; rfl
  · cases h

theorem left_of_bareName {owner : Owner} {name : String} {source : σ} {parsed : Parsed σ}
    (h : bareName owner name source = .ok parsed) : left parsed.source ≤ left source := by
  unfold bareName at h
  cases found : lookahead source with
  | error => simp [found, bind, Except.bind] at h
  | ok ahead =>
    simp only [found, bind, Except.bind] at h
    split at h
    · cases h
    · cases h
      exact left_held (lookahead_eq_ok.mp found)

theorem ne_endOfInput_of_takesInfix {least : Nat} {token : Token} {op : InfixOp}
    (h : takesInfix least token = some op) : token ≠ .endOfInput := by
  rintro rfl
  cases h

theorem ne_endOfInput_of_takesConditional {least : Nat} {token : Token}
    (h : takesConditional least token = true) : token ≠ .endOfInput := by
  rintro rfl
  cases h

end TableFormula
