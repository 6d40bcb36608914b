import TableFormula.Phrase.Numbers
import TableFormula.Proofs.WholeFormula

namespace TableFormula

/-! ### Numbers in a place -/

namespace Place

/-- How many numbers were read before a place. -/
def numbers : Place → Nat
  | infixTail _ part | conditionalTail _ part => part.numbers
  | formula _ | operand => 0

def renumber (f : Nat → String → String) (start : Nat) : Place → Place
  | infixTail least chain => .infixTail least (chain.renumber f start)
  | conditionalTail least condition => .conditionalTail least (condition.renumber f start)
  | place => place

theorem renumber_eq_self {f : Nat → String → String} {start : Nat} {place : Place}
    (same : ∀ index, start ≤ index → index < start + place.numbers →
      ∀ digits, f index digits = digits) : place.renumber f start = place := by
  cases place with
  | infixTail _ part | conditionalTail _ part => rw [renumber, part.renumber_eq_self same]
  | formula | operand => rfl

theorem length_digitsOf_before (place : Place) : (digitsOf place.before).length = place.numbers := by
  cases place with
  | infixTail _ part | conditionalTail _ part => exact part.length_digitsOf_tokens
  | formula | operand => rfl

end Place

theorem digitsOf_closings (missing : Nat) : digitsOf (closings missing) = [] :=
  List.filterMap_eq_nil_iff.mpr fun token member => by
    rw [List.eq_of_mem_replicate member]
    rfl

theorem bind_of_error {ε α β : Type} {x : Except ε α} {f : α → Except ε β} {fault : ε}
    (failed : x = .error fault) : x >>= f = .error fault := by
  rw [failed]
  rfl

theorem bind_of_ok {ε α β : Type} {x : Except ε α} {f : α → Except ε β} {a : α} {y : Except ε β}
    (given : x = .ok a) (next : f a = y) : x >>= f = y := by
  rw [given]
  exact next

namespace Reads

variable {lenient : Bool} {place : Place} {tokens rest : List Token} {phrase : Phrase}

/-- What is read takes its numbers from the tokens. -/
theorem digitsOf_eq (h : Reads lenient place tokens phrase rest) :
    digitsOf place.before ++ digitsOf tokens = digitsOf phrase.tokens ++ digitsOf rest := by
  obtain ⟨missing, -, written, -⟩ := h.writes
  have same := congrArg digitsOf written
  rwa [digitsOf_append, digitsOf_append, digitsOf_append, digitsOf_closings, List.append_nil] at same

theorem numbers_eq (h : Reads lenient place tokens phrase rest) :
    place.numbers + (digitsOf tokens).length = phrase.numbers + (digitsOf rest).length := by
  have counts := congrArg List.length h.digitsOf_eq
  rwa [List.length_append, List.length_append, place.length_digitsOf_before,
    phrase.length_digitsOf_tokens] at counts

theorem numbers_le (h : Reads lenient place tokens phrase rest) : place.numbers ≤ phrase.numbers := by
  have counts := h.numbers_eq
  have fewer : (digitsOf rest).length ≤ (digitsOf tokens).length :=
    (h.suffix.sublist.filterMap Token.digits?).length_le
  omega

/-! ### Numbers that fit -/

theorem nextToken_renumber {α : Type} {f : Nat → String → String} (g : Token → α)
    (numbers : ∀ a b, g (.number a) = g (.number b)) (start : Nat) (tokens : List Token) :
    g (nextToken (TableFormula.renumber f start tokens)) = g (nextToken tokens) := by
  cases tokens with
  | nil => rfl
  | cons token tokens =>
    cases token with
    | number digits => exact numbers _ _
    | name | string | symbol | endOfInput => rfl

/-- Where a phrase is read, it is read with other numbers if they fit. -/
theorem renumber {f : Nat → String → String} (h : Reads lenient place tokens phrase rest) :
    ∀ start, (∀ index, start ≤ index → index < start + phrase.numbers → ∀ digits,
        (wordOfDigits? digits).isSome = true → (wordOfDigits? (f index digits)).isSome = true) →
      Reads lenient (place.renumber f start)
        (TableFormula.renumber f (start + place.numbers) tokens) (phrase.renumber f start)
        (TableFormula.renumber f (start + phrase.numbers) rest) := by
  induction h with
  | formula first chain whole ihFirst ihChain ihWhole =>
    intro start fit
    have few := chain.numbers_le
    have fewer := whole.numbers_le
    simp only [Place.numbers] at few fewer
    exact .formula (ihFirst start fun index low high => fit index low (by omega))
      (ihChain start fun index low high => fit index low (by omega)) (ihWhole start fit)
  | infixEnd stops =>
    intro start _
    exact .infixEnd ((nextToken_renumber (takesInfix _) (fun _ _ => rfl) _ _).trans stops)
  | @infixMore _ chain right _ _ _ _ _ _ taken _ whole ihRight ihWhole =>
    intro start fit
    have few := whole.numbers_le
    simp only [Place.numbers, Phrase.numbers] at few ihWhole
    obtain ⟨rfl, -⟩ := takesInfix_eq_some_iff.mp taken
    refine .infixMore taken (ihRight (start + chain.numbers)
      fun index low high => fit index (by omega) (by omega)) ?_
    rw [Nat.add_assoc]
    exact ihWhole start fit
  | conditionalEnd stops =>
    intro start _
    exact .conditionalEnd ((nextToken_renumber (takesConditional _) (fun _ _ => rfl) _ _).trans stops)
  | @conditionalMore _ condition first second _ _ _ _ _ _ taken _ _ whole ihFirst ihSecond
      ihWhole =>
    intro start fit
    have few := whole.numbers_le
    simp only [Place.numbers, Phrase.numbers] at few ihWhole
    obtain ⟨rfl, -⟩ := takesConditional_iff.mp taken
    have second := ihSecond (start + condition.numbers + first.numbers)
      fun index low high => fit index (by omega) (by omega)
    have whole := ihWhole start fit
    rw [← Nat.add_assoc, ← Nat.add_assoc] at whole
    exact .conditionalMore taken (ihFirst (start + condition.numbers)
      fun index low high => fit index (by omega) (by omega)) second whole
  | number word =>
    intro start fit
    exact .number (fit start (Nat.le_refl _) (Nat.lt_succ_self _) _ word)
  | bare free noCall =>
    intro start _
    refine .bare free ?_
    rwa [ne_eq, nextToken_renumber (· = .symbol "(") (by simp)]
  | reference found =>
    intro start _
    exact .reference found
  | @call _ _ first _ _ _ _ called _ _ ihFirst ihSecond =>
    intro start fit
    simp only [Phrase.numbers] at fit
    refine .call called (ihFirst start fun index low high => fit index low (by omega)) ?_
    rw [Phrase.numbers, ← Nat.add_assoc]
    exact ihSecond (start + first.numbers) fun index low high => fit index (by omega) (by omega)
  | prefixed found _ ih =>
    intro start fit
    exact .prefixed found (ih start fit)
  | group _ ih =>
    intro start fit
    exact .group (ih start fit)
  | unclosed tolerated _ ih =>
    intro start fit
    exact .unclosed tolerated (ih start fit)

/-! ### A number that does not fit -/

section

variable {options : Options} {fault : Option LexFault} {start depth n : Nat} {literal : String}

/-- What is read in front of a number is read whatever its digits are. -/
theorem run_before (h : Reads options.allowUnclosedParens place tokens phrase rest) (owner : Owner)
    (sound : rest = [] → fault = none) (before : start + phrase.numbers ≤ n)
    (reached : place.Reached options.maxDepth owner depth)
    (within : phrase.Within options.maxDepth owner depth) :
    place.run options owner depth
        ⟨TableFormula.renumber (writeAt n literal) (start + place.numbers) tokens, fault⟩ =
      .ok (phrase.parsed owner
        ⟨TableFormula.renumber (writeAt n literal) (start + phrase.numbers) rest, fault⟩) := by
  have kept : ∀ index < start + phrase.numbers, ∀ digits,
      writeAt n literal index digits = digits := fun index less _ => if_neg (by omega)
  have few := h.numbers_le
  have again := h.renumber (f := writeAt n literal) start
    fun index _ high digits word => by rwa [kept index high]
  rw [place.renumber_eq_self fun index _ high => kept index (by omega),
    phrase.renumber_eq_self fun index _ high => kept index high] at again
  have ends : TableFormula.renumber (writeAt n literal) (start + phrase.numbers) rest = [] →
      fault = none := fun nothing => sound (renumber_eq_nil_iff.mp nothing)
  exact (again.run owner fault ends depth reached).trans (outcome_of_within within)

/-- A reader that goes on behind a part stops at the number, in the part or behind it. -/
theorem stops_in_or_behind (h : Reads options.allowUnclosedParens place tokens phrase rest)
    (owner : Owner) (sound : rest = [] → fault = none)
    (reached : place.Reached options.maxDepth owner depth)
    (within : phrase.Within options.maxDepth owner depth)
    {next : Parsed TokenStream → Except ParseError (Parsed TokenStream)}
    (inPart : n < start + phrase.numbers → place.run options owner depth
        ⟨TableFormula.renumber (writeAt n literal) (start + place.numbers) tokens, fault⟩ =
      .error (.invalidNumber literal))
    (behind : start + phrase.numbers ≤ n → next (phrase.parsed owner
        ⟨TableFormula.renumber (writeAt n literal) (start + phrase.numbers) rest, fault⟩) =
      .error (.invalidNumber literal)) :
    place.run options owner depth
        ⟨TableFormula.renumber (writeAt n literal) (start + place.numbers) tokens, fault⟩ >>= next =
      .error (.invalidNumber literal) := by
  by_cases inside : n < start + phrase.numbers
  · exact bind_of_error (inPart inside)
  · have before := Nat.le_of_not_lt inside
    exact bind_of_ok (h.run_before owner sound before reached within) (behind before)

/-- The readers stop at a number that they come to and that does not fit. -/
theorem run_unfit (h : Reads options.allowUnclosedParens place tokens phrase rest) (owner : Owner)
    (unfit : wordOfDigits? literal = none) (sound : rest = [] → fault = none) :
    ∀ start depth, start + place.numbers ≤ n → n < start + phrase.numbers →
      place.Reached options.maxDepth owner depth → phrase.Within options.maxDepth owner depth →
      place.run options owner depth
          ⟨TableFormula.renumber (writeAt n literal) (start + place.numbers) tokens, fault⟩ =
        .error (.invalidNumber literal) := by
  -- The part that has the number stops there; those in front of it go as they went before.
  induction h with
  | @formula _ _ _ _ _ first chain phrase firstRead chainRead wholeRead ihFirst ihChain ihWhole =>
    intro start depth behind inside _ within
    have endsChain := wholeRead.ends sound
    have endsFirst := chainRead.ends endsChain
    have withinChain := wholeRead.within_of_conditionalTail within
    have withinFirst := chainRead.within_of_infixTail withinChain
    have reached : depth < options.maxDepth := by
      have := phrase.nest_pos
      have := within.1
      omega
    refine (expr_eq ..).trans ?_
    rw [if_neg (Nat.not_le.mpr reached)]
    refine firstRead.stops_in_or_behind owner endsFirst reached withinFirst
      (fun inFirst => ihFirst endsFirst start depth behind inFirst reached withinFirst)
      fun afterFirst => ?_
    refine chainRead.stops_in_or_behind owner endsChain withinFirst withinChain
      (fun inChain => ihChain endsChain start depth afterFirst inChain withinFirst withinChain)
      fun afterChain => ?_
    exact ihWhole sound start depth afterChain inside withinChain within
  | infixEnd | conditionalEnd =>
    intro start depth behind inside
    exact absurd inside (Nat.not_lt.mpr behind)
  | @infixMore _ chain right phrase _ op _ _ _ taken rightRead wholeRead ihRight ihWhole =>
    intro start depth behind inside _ within
    simp only [Place.numbers, Phrase.numbers, ← Nat.add_assoc] at ihWhole
    have ends := wholeRead.ends sound
    have withinPart := wholeRead.within_of_infixTail within
    obtain ⟨rfl, -⟩ := takesInfix_eq_some_iff.mp taken
    refine (infixTail_more taken).trans ?_
    refine rightRead.stops_in_or_behind owner ends trivial withinPart.right
      (fun inRight => ihRight ends (start + chain.numbers) (depth + 1) behind inRight trivial
        withinPart.right) fun afterRight => ?_
    refine bind_of_ok ((node_eq_outcome (.between op chain right) withinPart.1 rfl).trans
      (outcome_of_within withinPart)) ?_
    exact ihWhole sound start depth afterRight inside withinPart within
  | @conditionalMore _ condition first second phrase _ _ _ _ _ taken firstRead secondRead wholeRead
      ihFirst ihSecond ihWhole =>
    intro start depth behind inside _ within
    simp only [Place.numbers, Phrase.numbers, ← Nat.add_assoc] at ihWhole
    have ends := wholeRead.ends sound
    have withinPart := wholeRead.within_of_conditionalTail within
    obtain ⟨withinFirst, withinSecond⟩ := withinPart.branches
    obtain ⟨rfl, -⟩ := takesConditional_iff.mp taken
    refine (conditionalTail_more taken).trans ?_
    refine firstRead.stops_in_or_behind owner sound_cons trivial withinFirst
      (fun inFirst => ihFirst sound_cons (start + condition.numbers) (depth + 1) behind inFirst
        trivial withinFirst) fun afterFirst => ?_
    refine bind_of_ok (expect_stream rfl) ?_
    refine secondRead.stops_in_or_behind owner ends trivial withinSecond
      (fun inSecond => ihSecond ends (start + condition.numbers + first.numbers) (depth + 1)
        afterFirst inSecond trivial withinSecond) fun afterSecond => ?_
    refine bind_of_ok ((node_eq_outcome (.conditional condition first second) withinPart.1 rfl).trans
      (outcome_of_within withinPart)) ?_
    exact ihWhole sound start depth afterSecond inside withinPart within
  | @number digits tokens word =>
    intro start depth behind inside _ _
    obtain rfl : start = n := Nat.le_antisymm behind (Nat.le_of_lt_succ inside)
    have written : writeAt start literal start digits = literal := if_pos rfl
    refine (operand_number _).trans ?_
    rw [Place.numbers, Nat.add_zero, written, TableFormula.number, unfit]
  | bare | reference =>
    intro start depth behind inside
    exact absurd inside (Nat.not_lt.mpr behind)
  | @call _ _ first second _ _ _ called firstRead _ ihFirst ihSecond =>
    intro start depth behind inside _ within
    obtain ⟨withinFirst, withinSecond⟩ := within.arguments
    rw [Phrase.numbers, ← Nat.add_assoc] at inside
    refine (operand_call called).trans (bind_of_ok (expect_stream rfl) ?_)
    refine firstRead.stops_in_or_behind owner sound_cons trivial withinFirst
      (fun inFirst => ihFirst sound_cons start (depth + 1) behind inFirst trivial withinFirst)
      fun afterFirst => ?_
    refine bind_of_ok (expect_stream rfl) ?_
    exact bind_of_error (ihSecond sound_cons (start + first.numbers) (depth + 1) afterFirst inside
      trivial withinSecond)
  | prefixed found _ ih =>
    intro start depth behind inside _ within
    refine (operand_prefixed found).trans ?_
    exact bind_of_error (ih sound start (depth + 1) behind inside trivial within.operand)
  | group _ ih =>
    intro start depth behind inside _ within
    refine operand_group.trans ?_
    exact bind_of_error
      (ih sound_cons start (depth + 1) behind inside trivial (within_group.mp within))
  | unclosed _ _ ih =>
    intro start depth behind inside _ within
    refine operand_group.trans ?_
    exact bind_of_error (ih sound start (depth + 1) behind inside trivial (within_group.mp within))

end

end Reads

section

variable {options : Options} {owner : Owner} {tokens : List Token} {phrase : Phrase} {n : Nat}
  {literal : String}

theorem Phrase.formula_writeAt (owner : Owner) {value : Int64}
    (found : wordOfDigits? literal = some value) (phrase : Phrase) :
    (phrase.renumber (writeAt n literal) 0).formula owner =
      (phrase.formula owner).setConstant n value := by
  refine phrase.formula_renumber owner (fun index digits => ?_) 0
  by_cases same : index = n
  · rw [writeAt, writeAt, if_pos same, if_pos same, found]
    rfl
  · rw [writeAt, writeAt, if_neg same, if_neg same]

/-- A number that fits is read as its value in the place of another number. -/
theorem readFormula_writeAt {value : Int64} (found : wordOfDigits? literal = some value)
    (reads : Reads options.allowUnclosedParens (.formula 0) tokens phrase [])
    (within : phrase.Within options.maxDepth owner 0) :
    readFormula options owner ({ tokens := renumber (writeAt n literal) 0 tokens } : TokenStream) =
      .ok ((phrase.formula owner).setConstant n value) := by
  have again : Reads options.allowUnclosedParens (.formula 0)
      (renumber (writeAt n literal) 0 tokens) (phrase.renumber (writeAt n literal) 0) [] :=
    reads.renumber 0 fun index _ _ digits word => by
      rw [writeAt]
      split
      · rw [found]
        rfl
      · exact word
  have height := (phrase.formula owner).height_mapConstants (writeAt n value) 0
  have fits : (phrase.renumber (writeAt n literal) 0).Within options.maxDepth owner 0 := by
    rw [Phrase.Within, Phrase.nest_renumber, Phrase.formula_writeAt owner found]
    exact ⟨within.1, height ▸ within.2⟩
  rw [readFormula_of_reads again (fun _ => rfl) (fun _ => rfl), if_pos fits,
    Phrase.formula_writeAt owner found]

/-- A number that does not fit is the fault of the formula in which it is written. -/
theorem readFormula_unfit (unfit : wordOfDigits? literal = none)
    (reads : Reads options.allowUnclosedParens (.formula 0) tokens phrase [])
    (within : phrase.Within options.maxDepth owner 0) (inside : n < phrase.numbers) :
    readFormula options owner ({ tokens := renumber (writeAt n literal) 0 tokens } : TokenStream) =
      .error (.invalidNumber literal) := by
  refine bind_of_error ?_
  exact reads.run_unfit owner unfit (fun _ => rfl) 0 0 (Nat.zero_le n) (by omega) trivial within

end

end TableFormula
