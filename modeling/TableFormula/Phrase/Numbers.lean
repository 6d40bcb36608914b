import TableFormula.Formula.Constants
import TableFormula.Phrase.Basic

namespace TableFormula

def Token.digits? : Token → Option String
  | number digits => some digits
  | _ => none

/-- The digits of the numbers among the tokens. -/
def digitsOf (tokens : List Token) : List String := tokens.filterMap Token.digits?

/-- The tokens with other digits in their numbers. The new digits of a number may depend on the old
ones and on its index, where `start` is the index of the first. -/
def renumber (f : Nat → String → String) (start : Nat) : List Token → List Token
  | [] => []
  | .number digits :: behind => .number (f start digits) :: renumber f (start + 1) behind
  | token :: behind => token :: renumber f start behind

namespace Phrase

def numbers : Phrase → Nat
  | number _ => 1
  | bare _ | reference _ _ _ => 0
  | call _ first second => first.numbers + second.numbers
  | group inner => inner.numbers
  | prefixed _ operand => operand.numbers
  | between _ left right => left.numbers + right.numbers
  | conditional condition first second => condition.numbers + first.numbers + second.numbers

def renumber (f : Nat → String → String) (start : Nat) : Phrase → Phrase
  | number digits => .number (f start digits)
  | call fn first second =>
    .call fn (first.renumber f start) (second.renumber f (start + first.numbers))
  | group inner => .group (inner.renumber f start)
  | prefixed op operand => .prefixed op (operand.renumber f start)
  | between op left right =>
    .between op (left.renumber f start) (right.renumber f (start + left.numbers))
  | conditional condition first second =>
    .conditional (condition.renumber f start) (first.renumber f (start + condition.numbers))
      (second.renumber f (start + condition.numbers + first.numbers))
  | phrase => phrase

end Phrase

section

variable {f : Nat → String → String}

theorem digitsOf_append (first second : List Token) :
    digitsOf (first ++ second) = digitsOf first ++ digitsOf second := List.filterMap_append

theorem mem_digitsOf_iff {digits : String} {tokens : List Token} :
    digits ∈ digitsOf tokens ↔ .number digits ∈ tokens := by
  refine List.mem_filterMap.trans ⟨?_, fun member => ⟨.number digits, member, rfl⟩⟩
  rintro ⟨token, member, same⟩
  cases token with
  | number other =>
    cases same
    exact member
  | name | string | symbol | endOfInput => cases same

@[simp] theorem digitsOf_symbol (text : String) (behind : List Token) :
    digitsOf (.symbol text :: behind) = digitsOf behind := rfl

@[simp] theorem digitsOf_number (digits : String) (behind : List Token) :
    digitsOf (.number digits :: behind) = digits :: digitsOf behind := rfl

@[simp] theorem digitsOf_name (text : String) (behind : List Token) :
    digitsOf (.name text :: behind) = digitsOf behind := rfl

@[simp] theorem digitsOf_nil : digitsOf [] = [] := rfl

theorem renumber_append (start : Nat) (first second : List Token) :
    renumber f start (first ++ second) =
      renumber f start first ++ renumber f (start + (digitsOf first).length) second := by
  induction first generalizing start with
  | nil => rfl
  | cons token first ih =>
    cases token with
    | number digits =>
      rw [List.cons_append, renumber, ih, renumber, Nat.add_assoc, Nat.add_comm 1]
      rfl
    | name | string | symbol | endOfInput => exact congrArg (_ :: ·) (ih start)

theorem renumber_eq_nil_iff {start : Nat} {tokens : List Token} :
    renumber f start tokens = [] ↔ tokens = [] := by
  cases tokens with
  | nil => exact Iff.rfl
  | cons token tokens => cases token <;> simp [renumber]

/-- Tokens stay as they are if their numbers do. -/
theorem renumber_eq_self {start : Nat} {tokens : List Token}
    (same : ∀ index, start ≤ index → index < start + (digitsOf tokens).length →
      ∀ digits, f index digits = digits) : renumber f start tokens = tokens := by
  induction tokens generalizing start with
  | nil => rfl
  | cons token tokens ih =>
    cases token with
    | number digits =>
      rw [digitsOf_number, List.length_cons] at same
      rw [renumber, same start (Nat.le_refl _) (by omega),
        ih fun index low high => same index (by omega) (by omega)]
    | name | string | symbol | endOfInput => exact congrArg (_ :: ·) (ih same)

/-- Only the number that is counted is written. -/
theorem renumber_writeAt (front back : List Token) (old digits : String) :
    renumber (writeAt (digitsOf front).length digits) 0 (front ++ .number old :: back) =
      front ++ .number digits :: back := by
  have early : renumber (writeAt (digitsOf front).length digits) 0 front = front :=
    renumber_eq_self fun index _ less old => if_neg (by omega)
  have late : renumber (writeAt (digitsOf front).length digits)
      ((digitsOf front).length + 1) back = back :=
    renumber_eq_self fun index more _ old => if_neg (by omega)
  rw [renumber_append, early, Nat.zero_add, renumber, late, writeAt, if_pos rfl]

end

namespace Phrase

section

variable {f : Nat → String → String}

theorem length_digitsOf_tokens (phrase : Phrase) :
    (digitsOf phrase.tokens).length = phrase.numbers := by
  induction phrase with
  | number | bare | reference => rfl
  | call fn first second ihFirst ihSecond =>
    simp [tokens, numbers, digitsOf_append, ihFirst, ihSecond]
  | group inner ih => simp [tokens, numbers, digitsOf_append, ih]
  | prefixed op operand ih => exact ih
  | between op left right ihLeft ihRight =>
    simp [tokens, numbers, digitsOf_append, ihLeft, ihRight]
  | conditional condition first second ihCondition ihFirst ihSecond =>
    simp [tokens, numbers, digitsOf_append, ihCondition, ihFirst, ihSecond, Nat.add_assoc]

theorem renumber_eq_self {start : Nat} {phrase : Phrase}
    (same : ∀ index, start ≤ index → index < start + phrase.numbers →
      ∀ digits, f index digits = digits) : phrase.renumber f start = phrase := by
  induction phrase generalizing start with
  | number digits => rw [renumber, same start (Nat.le_refl _) (Nat.lt_succ_self _)]
  | bare | reference => rfl
  | call fn first second ihFirst ihSecond =>
    rw [numbers] at same
    rw [renumber, ihFirst fun index low high => same index low (by omega),
      ihSecond fun index low high => same index (by omega) (by omega)]
  | group inner ih => rw [renumber, ih same]
  | prefixed op operand ih => rw [renumber, ih same]
  | between op left right ihLeft ihRight =>
    rw [numbers] at same
    rw [renumber, ihLeft fun index low high => same index low (by omega),
      ihRight fun index low high => same index (by omega) (by omega)]
  | conditional condition first second ihCondition ihFirst ihSecond =>
    rw [numbers] at same
    rw [renumber, ihCondition fun index low high => same index low (by omega),
      ihFirst fun index low high => same index (by omega) (by omega),
      ihSecond fun index low high => same index (by omega) (by omega)]

theorem nest_renumber (start : Nat) (phrase : Phrase) :
    (phrase.renumber f start).nest = phrase.nest := by
  induction phrase generalizing start with
  | number | bare | reference => rfl
  | call fn first second ihFirst ihSecond => rw [renumber, nest, nest, ihFirst, ihSecond]
  | group inner ih => rw [renumber, nest, nest, ih]
  | prefixed op operand ih => rw [renumber, nest, nest, ih]
  | between op left right ihLeft ihRight => rw [renumber, nest, nest, ihLeft, ihRight]
  | conditional condition first second ihCondition ihFirst ihSecond =>
    rw [renumber, nest, nest, ihCondition, ihFirst, ihSecond]

end

variable (owner : Owner)

theorem constants_formula (phrase : Phrase) : (phrase.formula owner).constants =
    (digitsOf phrase.tokens).map fun digits => (wordOfDigits? digits).getD 0 := by
  induction phrase with
  | number | bare | reference => rfl
  | call fn first second ihFirst ihSecond =>
    simp [formula, Formula.constants, tokens, digitsOf_append, ihFirst, ihSecond]
  | group inner ih => simp [formula, tokens, digitsOf_append, ih]
  | prefixed op operand ih => exact ih
  | between op left right ihLeft ihRight =>
    simp [formula, Formula.constants, tokens, digitsOf_append, ihLeft, ihRight]
  | conditional condition first second ihCondition ihFirst ihSecond =>
    simp [formula, Formula.constants, tokens, digitsOf_append, ihCondition, ihFirst, ihSecond]

theorem length_constants_formula (phrase : Phrase) :
    (phrase.formula owner).constants.length = phrase.numbers := by
  rw [constants_formula, List.length_map, length_digitsOf_tokens]

/-- With other digits, a phrase stands for its formula with the constants that they write. -/
theorem formula_renumber {f : Nat → String → String} {g : Nat → Int64 → Int64}
    (written : ∀ index digits, (wordOfDigits? (f index digits)).getD 0 =
      g index ((wordOfDigits? digits).getD 0)) (start : Nat) (phrase : Phrase) :
    (phrase.renumber f start).formula owner = (phrase.formula owner).mapConstants g start := by
  induction phrase generalizing start with
  | number digits => exact congrArg Formula.constant (written start digits)
  | bare | reference => rfl
  | call fn first second ihFirst ihSecond | between op first second ihFirst ihSecond =>
    rw [renumber, formula, formula, Formula.mapConstants, length_constants_formula, ihFirst,
      ihSecond]
  | group inner ih => exact ih start
  | prefixed op operand ih => exact congrArg (Formula.unary op) (ih start)
  | conditional condition first second ihCondition ihFirst ihSecond =>
    rw [renumber, formula, formula, Formula.mapConstants, length_constants_formula,
      length_constants_formula, ihCondition, ihFirst, ihSecond]

end Phrase

end TableFormula
