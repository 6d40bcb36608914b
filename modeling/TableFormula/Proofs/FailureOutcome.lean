import TableFormula.Proofs.FailedReading
import TableFormula.Proofs.WholeFormula

/-! Where reading fails, the readers report its fault, or the limit of depth if they meet that before. -/

namespace TableFormula

open TokenSource

/-! ### Refused tokens on a stream -/

section

variable {options : Options} {owner : Owner} {depth : Nat} {tokens rest : List Token}
  {ending : Option LexFault}

theorem operand_refused (refused : (nextToken tokens).beginsOperand = false)
    (sound : tokens = [] → ending = none) :
    operand options owner depth (⟨tokens, ending⟩ : TokenStream) =
      .error (.unexpectedToken (nextToken tokens)) := by
  rw [operand_eq, lookahead_stream sound, ok_bind]
  dsimp only
  cases next : nextToken tokens with
  | number | name =>
    rw [next] at refused
    cases refused
  | string | endOfInput => rfl
  | symbol text =>
    rw [next, Token.beginsOperand, Bool.or_eq_false_iff] at refused
    obtain ⟨noGroup, noPrefix⟩ := refused
    dsimp only
    rw [if_neg (beq_eq_false_iff_ne.mp noGroup), Option.not_isSome_iff_eq_none.mp
      (Bool.eq_false_iff.mp noPrefix)]

theorem bind_expect_missing {α : Type} {what missing : Expectation} {later : List Expectation}
    {f : Lookahead TokenStream → Except ParseError α}
    (h : firstMissing (what :: later) tokens = some (missing, rest))
    (sound : rest = [] → ending = none)
    (goesOn : ∀ ahead tail, ahead.rest = (⟨tail, ending⟩ : TokenStream) →
      firstMissing later tail = some (missing, rest) →
      f ahead = .error (.expected missing (nextToken rest))) :
    expect what (⟨tokens, ending⟩ : TokenStream) >>= f =
      .error (.expected missing (nextToken rest)) := by
  obtain ⟨token, tokens, rfl, accepted⟩ | refused := what.accepts_cases tokens
  · rw [firstMissing_accepted accepted] at h
    rw [expect_stream accepted, ok_bind]
    exact goesOn _ tokens rfl h
  · rw [firstMissing_refused refused] at h
    cases h
    rw [expect_refused what refused sound]
    rfl

theorem property_missing {kind : String} {missing : Expectation}
    (h : firstMissing Expectation.ofReference tokens = some (missing, rest))
    (sound : rest = [] → ending = none) :
    property kind (⟨tokens, ending⟩ : TokenStream) = .error (.expected missing (nextToken rest)) := by
  rw [property_eq]
  refine bind_expect_missing h sound fun opening _ same h => ?_
  rw [same]
  refine bind_expect_missing h sound fun name _ same h => ?_
  rw [same]
  refine bind_expect_missing h sound fun dot _ same h => ?_
  rw [same]
  refine bind_expect_missing h sound fun qualifier _ same h => ?_
  rw [same]
  exact bind_expect_missing h sound fun _ _ _ h => nomatch h

end

/-! ### Failed readings -/

/-- Whether a result is the fault, or the limit of depth was met before it. -/
def StopsWith {α : Type} (options : Options) (fault : ParseError) (result : Except ParseError α) :
    Prop :=
  result = .error fault ∨ result = .error (.tooDeep options.maxDepth)

section

variable {options : Options} {owner : Owner} {place part : Place} {depth : Nat}
  {tokens later rest : List Token} {fault : ParseError} {ending : Option LexFault}

namespace StopsWith

variable {x : Except ParseError (Parsed TokenStream)}
  {f : Parsed TokenStream → Except ParseError (Parsed TokenStream)}

theorem bind (h : StopsWith options fault x) : StopsWith options fault (x >>= f) := by
  rcases h with rfl | rfl
  · exact .inl rfl
  · exact .inr rfl

theorem after {phrase : Phrase} {source : TokenStream}
    (found : x = phrase.outcome options owner depth source)
    (next : phrase.Within options.maxDepth owner depth →
      StopsWith options fault (f (phrase.parsed owner source))) :
    StopsWith options fault (x >>= f) := by
  subst found
  unfold Phrase.outcome
  split
  · rename_i within
    exact next within
  · exact .inr rfl

theorem expr {least : Nat}
    (h : depth < options.maxDepth → StopsWith options fault (do
      let first ← operand options owner (depth + 1) (⟨tokens, ending⟩ : TokenStream)
      let chain ← infixTail options owner (depth + 1) least first
      conditionalTail options owner (depth + 1) least chain)) :
    StopsWith options fault
      (TableFormula.expr options owner depth least (⟨tokens, ending⟩ : TokenStream)) := by
  rw [expr_eq]
  split
  · exact .inr rfl
  · rename_i reached
    exact h (Nat.lt_of_not_le reached)

end StopsWith

theorem Enters.run (owner : Owner)
    (h : Enters options.allowUnclosedParens place tokens part later)
    (stops : ∀ depth, part.Reached options.maxDepth owner depth →
      StopsWith options fault (part.run options owner depth ⟨later, ending⟩))
    (reached : place.Reached options.maxDepth owner depth) :
    StopsWith options fault (place.run options owner depth ⟨tokens, ending⟩) := by
  cases h with
  | operand => exact .expr fun reached => (stops depth reached).bind
  | infixTail first =>
    exact .expr fun reached => .after (first.run owner ending sound_cons depth reached)
      fun fits => (stops depth fits).bind
  | conditionalTail first chain =>
    exact .expr fun reached =>
      .after (first.run owner ending (chain.ends sound_cons) depth reached) fun fits =>
        .after (chain.run owner ending sound_cons depth fits) fun fits => stops depth fits
  | right taken =>
    show StopsWith _ _ (TableFormula.infixTail _ _ _ _ _)
    rw [Phrase.parsed, infixTail_more taken]
    exact (stops (depth + 1) trivial).bind
  | @infixMore _ chain right _ _ op _ _ taken rightRead =>
    show StopsWith _ _ (TableFormula.infixTail _ _ _ _ _)
    rw [Phrase.parsed, infixTail_more taken]
    refine .after (rightRead.run owner ending sound_cons (depth + 1) trivial) fun fits => ?_
    refine .after (node_eq_outcome (.between op chain right) ?_ rfl) fun fits => stops depth fits
    have := reached.1
    have := fits.1
    simp only [Phrase.nest]
    omega
  | firstBranch taken =>
    show StopsWith _ _ (TableFormula.conditionalTail _ _ _ _ _)
    rw [Phrase.parsed, conditionalTail_more taken]
    exact (stops (depth + 1) trivial).bind
  | secondBranch taken first =>
    show StopsWith _ _ (TableFormula.conditionalTail _ _ _ _ _)
    rw [Phrase.parsed, conditionalTail_more taken]
    refine .after (first.run owner ending sound_cons (depth + 1) trivial) fun _ => ?_
    rw [Phrase.parsed, expect_stream rfl, ok_bind]
    exact (stops (depth + 1) trivial).bind
  | firstArgument called =>
    show StopsWith _ _ (TableFormula.operand _ _ _ _)
    rw [operand_call called, expect_stream rfl, ok_bind]
    exact (stops (depth + 1) trivial).bind
  | secondArgument called first =>
    show StopsWith _ _ (TableFormula.operand _ _ _ _)
    rw [operand_call called, expect_stream rfl, ok_bind]
    refine .after (first.run owner ending sound_cons (depth + 1) trivial) fun _ => ?_
    rw [Phrase.parsed, expect_stream rfl, ok_bind]
    exact (stops (depth + 1) trivial).bind
  | prefixed found =>
    show StopsWith _ _ (TableFormula.operand _ _ _ _)
    rw [operand_prefixed found]
    exact (stops (depth + 1) trivial).bind
  | group =>
    show StopsWith _ _ (TableFormula.operand _ _ _ _)
    rw [operand_group]
    exact (stops (depth + 1) trivial).bind

theorem Refuses.run (owner : Owner)
    (h : Refuses options.allowUnclosedParens place tokens fault rest)
    (sound : rest = [] → ending = none) (reached : place.Reached options.maxDepth owner depth) :
    StopsWith options fault (place.run options owner depth ⟨tokens, ending⟩) := by
  cases h with
  | unexpected refused => exact .inl (operand_refused refused sound)
  | number tooLarge =>
    refine .inl ((operand_number _).trans ?_)
    rw [TableFormula.number, tooLarge]
  | unknownFunction free =>
    refine .inl ((operand_bare free).trans ?_)
    rw [bareName_stream sound_cons, if_pos (nextToken_cons _ _)]
  | reference found missing =>
    exact .inl ((operand_reference found).trans (property_missing missing sound))
  | openCall called refused =>
    refine .inl ((operand_call called).trans ?_)
    rw [expect_refused .openCall (Token.isSymbol_eq_false_iff.mpr refused) sound]
    rfl
  | callComma called first refused =>
    show StopsWith _ _ (TableFormula.operand _ _ _ _)
    rw [operand_call called, expect_stream rfl, ok_bind]
    refine .after (first.run owner ending sound (depth + 1) trivial) fun _ => ?_
    rw [Phrase.parsed,
      expect_refused .callComma (Token.isSymbol_eq_false_iff.mpr refused) sound]
    exact .inl rfl
  | closeCall called first second refused =>
    show StopsWith _ _ (TableFormula.operand _ _ _ _)
    rw [operand_call called, expect_stream rfl, ok_bind]
    refine .after (first.run owner ending sound_cons (depth + 1) trivial) fun _ => ?_
    rw [Phrase.parsed, expect_stream rfl, ok_bind]
    refine .after (second.run owner ending sound (depth + 1) trivial) fun _ => ?_
    rw [Phrase.parsed,
      expect_refused .closeCall (Token.isSymbol_eq_false_iff.mpr refused) sound]
    exact .inl rfl
  | group inner refused unclosed =>
    show StopsWith _ _ (TableFormula.operand _ _ _ _)
    rw [operand_group]
    refine .after (inner.run owner ending sound (depth + 1) trivial) fun _ => ?_
    exact .inl (closeParenthesis_missing refused unclosed sound)
  | conditionalMarker taken first refused =>
    show StopsWith _ _ (TableFormula.conditionalTail _ _ _ _ _)
    rw [Phrase.parsed, conditionalTail_more taken]
    refine .after (first.run owner ending sound (depth + 1) trivial) fun _ => ?_
    rw [Phrase.parsed,
      expect_refused .conditionalMarker (Token.isSymbol_eq_false_iff.mpr refused) sound]
    exact .inl rfl

theorem Fails.run (owner : Owner) (h : Fails options.allowUnclosedParens place tokens fault rest)
    (sound : rest = [] → ending = none) (reached : place.Reached options.maxDepth owner depth) :
    StopsWith options fault (place.run options owner depth ⟨tokens, ending⟩) := by
  induction h generalizing depth with
  | here refuses => exact refuses.run owner sound reached
  | inside enters _ ih => exact enters.run owner (fun _ => ih sound) reached

/-- No list is read and fails as well. -/
theorem Fails.not_reads {lenient : Bool} {least : Nat} {tokens rest later : List Token}
    {phrase : Phrase} (h : Fails lenient (.formula least) tokens fault rest) :
    ¬Reads lenient (.formula least) tokens phrase later := by
  intro reads
  -- The readers cannot both give the phrase and report the fault where the limit is out of reach.
  let limit := max phrase.nest (phrase.formula {}).height
  let options : Options := { allowUnclosedParens := lenient, maxDepth := limit }
  have fails : Fails options.allowUnclosedParens (.formula least) tokens fault rest := h
  have reads : Reads options.allowUnclosedParens (.formula least) tokens phrase later := reads
  have within : phrase.Within options.maxDepth {} 0 :=
    ⟨(Nat.zero_add _).symm ▸ Nat.le_max_left _ _, Nat.le_max_right _ _⟩
  have stops : StopsWith options fault ((Place.formula least).run options {} 0 { tokens }) :=
    fails.run {} (fun _ => rfl) trivial
  rw [reads.run {} none (fun _ => rfl) 0 trivial, outcome_of_within within] at stops
  rcases stops with stops | stops <;> cases stops

end

/-- The fault of tokens that are no whole formula, and the tokens from the refused one on. -/
inductive FailsWhole (options : Options) (tokens : List Token) : ParseError → List Token → Prop where
  | inside {fault : ParseError} {rest : List Token} :
      Fails options.allowUnclosedParens (.formula 0) tokens fault rest →
      FailsWhole options tokens fault rest
  | trailing {phrase : Phrase} {next : Token} {later : List Token} :
      options.rejectTrailing = true →
      Reads options.allowUnclosedParens (.formula 0) tokens phrase (next :: later) →
      FailsWhole options tokens (.trailingInput next) (next :: later)

section

variable {options : Options} {owner : Owner} {tokens rest : List Token} {fault : ParseError}
  {ending : Option LexFault}

theorem FailsWhole.run (owner : Owner) (h : FailsWhole options tokens fault rest)
    (clean : .endOfInput ∉ tokens) (sound : rest = [] → ending = none) :
    StopsWith options fault (readFormula options owner (⟨tokens, ending⟩ : TokenStream)) := by
  cases h with
  | inside fails =>
    have stops : StopsWith options fault
        (expr options owner 0 0 (⟨tokens, ending⟩ : TokenStream)) :=
      fails.run owner sound trivial
    unfold readFormula
    rcases stops with stops | stops
    · exact .inl (by rw [stops]; rfl)
    · exact .inr (by rw [stops]; rfl)
  | @trailing phrase next later reject reads =>
    have given : expr options owner 0 0 ⟨tokens, ending⟩ =
        phrase.outcome options owner 0 ⟨next :: later, ending⟩ :=
      reads.run owner ending sound_cons 0 trivial
    have proper : next.isEnd = false := Token.isEnd_eq_false_iff.mpr (reads.ne_endOfInput clean)
    unfold readFormula
    rw [given, Phrase.outcome]
    simp only [reject, if_true]
    split
    · rw [ok_bind, Phrase.parsed, lookahead_cons, ok_bind, proper]
      exact .inl rfl
    · exact .inr rfl

theorem FailsWhole.reread (h : FailsWhole options tokens fault rest) :
    ∃ read, tokens = read ++ rest ∧ ∀ other : List Token, other.head? = rest.head? →
      FailsWhole options (read ++ other) fault other := by
  cases h with
  | inside fails =>
    obtain ⟨read, split, again⟩ := fails.reread
    exact ⟨read, split, fun other same => .inside (again other same)⟩
  | trailing reject reads =>
    obtain ⟨read, split, again⟩ := reads.reread
    refine ⟨read, split, fun other same => ?_⟩
    obtain ⟨later, rfl⟩ := eq_cons_of_head? same
    exact .trailing reject (again _ same)

/-- What is refused is no whole formula. -/
theorem FailsWhole.not_reads {phrase : Phrase} (h : FailsWhole options tokens fault rest) :
    ¬Reads options.allowUnclosedParens (.formula 0) tokens phrase [] := by
  intro reads
  cases h with
  | inside fails => exact fails.not_reads reads
  | trailing _ other => exact nomatch (reads.unique other).2

/-- Tokens that are no formula are refused, or met the limit of depth. -/
theorem readFormula_error (clean : .endOfInput ∉ tokens)
    (failed : readFormula options owner ({ tokens } : TokenStream) = .error fault) :
    fault = .tooDeep options.maxDepth ∨ ∃ rest, FailsWhole options tokens fault rest := by
  have known : ∀ {other : ParseError} {rest : List Token}, FailsWhole options tokens other rest →
      fault = .tooDeep options.maxDepth ∨ ∃ rest, FailsWhole options tokens fault rest := by
    intro other rest fails
    have stops : StopsWith options other (readFormula options owner ({ tokens } : TokenStream)) :=
      fails.run owner clean fun _ => rfl
    rw [failed] at stops
    rcases stops with same | same
    · cases same
      exact .inr ⟨rest, fails⟩
    · cases same
      exact .inl rfl
  obtain ⟨phrase, rest, reads⟩ | ⟨other, rest, fails⟩ :=
    reads_or_fails options.allowUnclosedParens (.formula 0) clean
  · by_cases whole : options.rejectTrailing = true → rest = []
    · rw [readFormula_of_reads reads (fun _ => rfl) whole] at failed
      split at failed
      · cases failed
      · cases failed
        exact .inl rfl
    · obtain ⟨reject, more⟩ := Classical.not_imp.mp whole
      obtain ⟨next, later, rfl⟩ := List.exists_cons_of_ne_nil more
      exact known (.trailing reject reads)
  · exact known (.inside fails)

end

end TableFormula
