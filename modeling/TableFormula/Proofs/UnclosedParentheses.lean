import TableFormula.Proofs.WholeFormula

/-!
A run that tolerates unclosed parentheses goes as a strict run on the same tokens with the missing
parentheses behind them. The simulation counts: with fewer parentheses the strict run stops at the end
of the tokens, with that many it ends as the tolerant one, and what it does with more of them is to
leave the rest.
-/

namespace TableFormula

open TokenSource

/-- The fault of a run that needs one more parenthesis. -/
abbrev unclosedAtEnd : ParseError := .unclosedParenthesis .endOfInput

namespace Options

def lenient (options : Options) : Options := { options with allowUnclosedParens := true }

def closed (options : Options) : Options := { options with allowUnclosedParens := false }

end Options

def TokenStream.closedBy (stream : TokenStream) (m : Nat) : TokenStream :=
  { stream with tokens := stream.tokens ++ closings m }

theorem TokenStream.closedBy_zero (stream : TokenStream) : stream.closedBy 0 = stream := by
  obtain ⟨tokens, fault⟩ := stream
  exact congrArg (TokenStream.mk · fault) (List.append_nil tokens)

def Parsed.closedBy (parsed : Parsed TokenStream) (m : Nat) : Parsed TokenStream :=
  { parsed with source := parsed.source.closedBy m }

theorem Parsed.closedBy_zero (parsed : Parsed TokenStream) : parsed.closedBy 0 = parsed := by
  obtain ⟨formula, height, stream⟩ := parsed
  exact congrArg (Parsed.mk formula height) stream.closedBy_zero

def openings (tokens : List Token) : Nat := tokens.count (.symbol "(")

/-! ### The simulation -/

/-- Whether a tolerant run over a stream ends as the strict runs that are given closing parentheses,
once they have as many as are missing. No more are missing than were opened on the way. -/
inductive Tolerates (stream : TokenStream) : Except ParseError (Parsed TokenStream) →
    (Nat → Except ParseError (Parsed TokenStream)) → Prop where
  | error (missing : Nat) {fault : ParseError} {strict : Nat → Except ParseError (Parsed TokenStream)} :
      missing ≤ openings stream.tokens → (missing ≠ 0 → stream.fault = none) →
      fault ≠ unclosedAtEnd → (∀ m < missing, strict m = .error unclosedAtEnd) →
      strict missing = .error fault → Tolerates stream (.error fault) strict
  | ok (missing : Nat) {parsed : Parsed TokenStream}
      {strict : Nat → Except ParseError (Parsed TokenStream)} :
      missing + openings parsed.source.tokens ≤ openings stream.tokens →
      parsed.source.tokens <:+ stream.tokens → parsed.source.fault = stream.fault →
      (missing ≠ 0 → parsed.source = { tokens := [] }) →
      (∀ m < missing, strict m = .error unclosedAtEnd) →
      (∀ m, strict (missing + m) = .ok (parsed.closedBy m)) → Tolerates stream (.ok parsed) strict

namespace Tolerates

variable {stream later : TokenStream} {x : Except ParseError (Parsed TokenStream)}
  {y : Nat → Except ParseError (Parsed TokenStream)}

theorem openings_le {first second : List Token} (h : first <:+ second) :
    openings first ≤ openings second := h.sublist.count_le _

theorem behind (h : Tolerates later x y) (suffix : later.tokens <:+ stream.tokens)
    (fault : later.fault = stream.fault) : Tolerates stream x y := by
  have few := openings_le suffix
  cases h with
  | error missing opened sound other early late =>
    exact .error missing (Nat.le_trans opened few) (fault ▸ sound) other early late
  | ok missing opened rest same ended early late =>
    exact .ok missing (Nat.le_trans opened few) (rest.trans suffix) (same.trans fault) ended early late

theorem cons {token : Token} {tokens : List Token} {fault : Option LexFault}
    (h : Tolerates ⟨tokens, fault⟩ x y) : Tolerates ⟨token :: tokens, fault⟩ x y :=
  h.behind (List.suffix_cons ..) rfl

theorem of_error {fault : ParseError} (other : fault ≠ unclosedAtEnd) (strict : y 0 = .error fault) :
    Tolerates stream (.error fault) y :=
  .error 0 (Nat.zero_le _) (fun more => absurd rfl more) other nofun strict

theorem of_ok {parsed : Parsed TokenStream} (suffix : parsed.source.tokens <:+ stream.tokens)
    (fault : parsed.source.fault = stream.fault) (strict : ∀ m, y m = .ok (parsed.closedBy m)) :
    Tolerates stream (.ok parsed) y := by
  refine .ok 0 ?_ suffix fault (fun more => absurd rfl more) nofun fun m => ?_
  · rw [Nat.zero_add]
    exact openings_le suffix
  · rw [Nat.zero_add]
    exact strict m

theorem stream_eq_of_suffix {first second : TokenStream} (ended : second = { tokens := [] })
    (suffix : first.tokens <:+ second.tokens) (fault : first.fault = second.fault) :
    first = { tokens := [] } := by
  subst ended
  obtain ⟨tokens, _⟩ := first
  obtain rfl : tokens = [] := List.suffix_nil.mp suffix
  obtain rfl := fault
  rfl

theorem bind (h : Tolerates stream x y)
    {f g : Parsed TokenStream → Except ParseError (Parsed TokenStream)}
    (next : ∀ parsed, x = .ok parsed → parsed.source.tokens <:+ stream.tokens →
      parsed.source.fault = stream.fault →
      Tolerates parsed.source (f parsed) fun m => g (parsed.closedBy m)) :
    Tolerates stream (x >>= f) fun m => y m >>= g := by
  cases h with
  | error missing opened sound other early late =>
    refine .error missing opened sound other (fun m less => ?_) ?_
    · rw [early m less]
      rfl
    · rw [late]
      rfl
  | @ok missing parsed _ opened suffix fault ended early late =>
    have earlier : ∀ m < missing, y m >>= g = .error unclosedAtEnd := by
      intro m less
      rw [early m less]
      rfl
    have onwards : ∀ m, y (missing + m) >>= g = g (parsed.closedBy m) := by
      intro m
      rw [late m]
      rfl
    have after := next parsed rfl suffix fault
    show Tolerates stream (f parsed) fun m => y m >>= g
    generalize f parsed = z at after
    -- With fewer parentheses than the first part needs, it stops; the rest are those of the second.
    have stops : ∀ missing', (∀ m < missing', g (parsed.closedBy m) = .error unclosedAtEnd) →
        ∀ m < missing + missing', y m >>= g = .error unclosedAtEnd := by
      intro missing' early' m less
      by_cases before : m < missing
      · exact earlier m before
      · obtain ⟨rest, rfl⟩ := Nat.exists_eq_add_of_le (Nat.le_of_not_lt before)
        rw [onwards]
        exact early' rest (by omega)
    cases after with
    | error missing' opened' sound' other early' late' =>
      refine .error (missing + missing') (by omega) (fun some => ?_) other (stops _ early') ?_
      · by_cases none : missing = 0
        · exact fault ▸ sound' (by omega)
        · rw [← fault, ended none]
      · rw [onwards]
        exact late'
    | @ok missing' last _ opened' suffix' fault' ended' early' late' =>
      refine .ok (missing + missing') (by omega) (suffix'.trans suffix) (fault'.trans fault)
        (fun some => ?_) (stops _ early') fun m => ?_
      · by_cases none : missing = 0
        · exact ended' (by omega)
        · exact stream_eq_of_suffix (ended none) suffix' fault'
      · rw [Nat.add_assoc, onwards]
        exact late' m

end Tolerates

/-! ### The readers without recursion -/

section

variable {options : Options} {owner : Owner} {tokens : List Token} {fault : Option LexFault}

theorem tolerates_node (formula : Formula) (partHeight : Nat) (stream : TokenStream) :
    Tolerates stream (node options.lenient formula partHeight stream) fun m =>
      node options.closed formula partHeight (stream.closedBy m) := by
  unfold node
  by_cases high : partHeight + 1 > options.lenient.maxDepth
  · rw [if_pos high]
    exact .of_error (by simp) (if_pos high)
  · rw [if_neg high]
    exact .of_ok List.suffix_rfl rfl fun m => if_neg high

theorem tolerates_number (digits : String) (stream : TokenStream) :
    Tolerates stream (number digits stream) fun m => number digits (stream.closedBy m) := by
  unfold number
  cases wordOfDigits? digits with
  | none => exact .of_error (by simp) rfl
  | some value => exact .of_ok List.suffix_rfl rfl fun _ => rfl

/-- A token that the grammar fixes is there in both runs, or in neither. -/
theorem tolerates_expect {what : Expectation} {stream : TokenStream}
    {f g : Lookahead TokenStream → Except ParseError (Parsed TokenStream)}
    (next : ∀ token rest, stream.tokens = token :: rest → what.accepts token = true →
      Tolerates ⟨rest, stream.fault⟩ (f ⟨token, stream, ⟨rest, stream.fault⟩⟩) fun m =>
        g ⟨token, stream.closedBy m, ⟨rest ++ closings m, stream.fault⟩⟩) :
    Tolerates stream (expect what stream >>= f) fun m => expect what (stream.closedBy m) >>= g := by
  obtain ⟨tokens, fault⟩ := stream
  cases tokens with
  | nil =>
    cases fault with
    | none =>
      have missing : expect what ({ tokens := [] } : TokenStream) = .error (.expected what .endOfInput) := by
        unfold expect
        rw [lookahead_stream fun _ => rfl, ok_bind]
        exact if_neg (by rw [nextToken_nil, what.not_accepts_endOfInput]; decide)
      have strict : expect what (({ tokens := [] } : TokenStream).closedBy 0) >>= g =
          .error (.expected what .endOfInput) := by
        show expect what ({ tokens := [] } : TokenStream) >>= g = _
        rw [missing]
        rfl
      rw [missing]
      exact .of_error (by simp) strict
    | some fault => exact .of_error (by simp) rfl
  | cons token rest =>
    cases accepted : what.accepts token with
    | true =>
      have strict : ∀ m, expect what ((⟨token :: rest, fault⟩ : TokenStream).closedBy m) = _ :=
        fun m => expect_stream accepted
      simp only [expect_stream accepted, strict]
      exact (next token rest rfl accepted).cons
    | false =>
      have refused : ∀ rest, expect what (⟨token :: rest, fault⟩ : TokenStream) =
          .error (.expected what token) := by
        intro rest
        unfold expect
        rw [lookahead_cons, ok_bind]
        exact if_neg (by rw [accepted]; decide)
      rw [refused]
      refine .of_error (by simp) ?_
      show expect what (⟨token :: (rest ++ closings 0), fault⟩ : TokenStream) >>= g = _
      rw [refused]
      rfl

theorem openings_cons (tokens : List Token) :
    openings (.symbol "(" :: tokens) = openings tokens + 1 := List.count_cons_self

/-- A parenthesis that is not closed at the end is one more that is missing. -/
theorem tolerates_group {x : Except ParseError (Parsed TokenStream)}
    {y : Nat → Except ParseError (Parsed TokenStream)} (clean : .endOfInput ∉ tokens)
    (h : Tolerates ⟨tokens, fault⟩ x y) :
    Tolerates ⟨.symbol "(" :: tokens, fault⟩ (x >>= closeParenthesis options.lenient) fun m =>
      y m >>= closeParenthesis options.closed := by
  have more := openings_cons tokens
  cases h with
  | error missing opened sound other early late =>
    refine .error missing ?_ sound other (fun m less => ?_) ?_
    · show missing ≤ openings (.symbol "(" :: tokens)
      exact Nat.le_trans opened (more ▸ Nat.le_succ _)
    · rw [early m less]
      rfl
    · rw [late]
      rfl
  | @ok missing parsed _ opened suffix same ended early late =>
    obtain ⟨formula, height, rest, fault'⟩ := parsed
    obtain rfl : fault' = fault := same
    -- What is missing inside the parenthesis is missing before it can be closed.
    have earlier : ∀ m < missing, y m >>= closeParenthesis options.closed = .error unclosedAtEnd := by
      intro m less
      rw [early m less]
      rfl
    have onwards : ∀ m, y (missing + m) >>= closeParenthesis options.closed =
        closeParenthesis options.closed ⟨formula, height, ⟨rest ++ closings m, fault'⟩⟩ := by
      intro m
      rw [late m]
      rfl
    show Tolerates _ (closeParenthesis options.lenient ⟨formula, height, ⟨rest, fault'⟩⟩) _
    cases rest with
    | nil =>
      cases fault' with
      | some fault =>
        obtain rfl : missing = 0 := Decidable.byContradiction fun some => nomatch ended some
        exact .of_error (by simp) (onwards 0)
      | none =>
        rw [closeParenthesis_end rfl]
        refine .ok (missing + 1) ?_ List.nil_suffix rfl (fun _ => rfl) (fun m less => ?_) fun m => ?_
        · show missing + 1 + 0 ≤ openings (.symbol "(" :: tokens)
          have opened : missing ≤ openings tokens := opened
          omega
        · rcases Nat.lt_succ_iff_lt_or_eq.mp less with before | rfl
          · exact earlier m before
          · exact onwards 0
        · rw [Nat.add_assoc, onwards, Nat.add_comm 1 m]
          rfl
    | cons token rest =>
      obtain rfl : missing = 0 := Decidable.byContradiction fun some => nomatch ended some
      simp only [Nat.zero_add] at onwards
      by_cases closing : token = .symbol ")"
      · subst closing
        rw [closeParenthesis_closed]
        have suffix : rest <:+ .symbol "(" :: tokens :=
          ((List.suffix_cons ..).trans suffix).trans (List.suffix_cons ..)
        exact .of_ok suffix rfl fun m => onwards m
      · have notEnd : token ≠ .endOfInput := by
          rintro rfl
          exact clean (suffix.subset (List.mem_cons_self ..))
        rw [closeParenthesis_refused closing notEnd]
        refine .of_error (fun same => notEnd (ParseError.unclosedParenthesis.inj same)) ?_
        rw [onwards]
        exact closeParenthesis_refused closing notEnd

theorem tolerates_property (kind : String) (stream : TokenStream) :
    Tolerates stream (property kind stream) fun m => property kind (stream.closedBy m) := by
  obtain ⟨tokens, fault⟩ := stream
  simp only [property_eq]
  refine tolerates_expect fun opening afterOpening _ _ => ?_
  refine tolerates_expect fun name afterName _ _ => ?_
  dsimp only
  refine tolerates_expect fun dot afterDot _ _ => ?_
  refine tolerates_expect fun qualifier afterQualifier _ _ => ?_
  dsimp only
  refine tolerates_expect fun closing rest _ _ => ?_
  exact .of_ok List.suffix_rfl rfl fun _ => rfl

theorem TokenStream.sound_or (stream : TokenStream) :
    (stream.tokens = [] → stream.fault = none) ∨ ∃ fault, stream = ⟨[], some fault⟩ := by
  obtain ⟨tokens, fault⟩ := stream
  cases tokens with
  | cons => exact .inl nofun
  | nil =>
    cases fault with
    | none => exact .inl fun _ => rfl
    | some fault => exact .inr ⟨fault, rfl⟩

theorem sound_closings (sound : tokens = [] → fault = none) (m : Nat) :
    tokens ++ closings m = [] → fault = none :=
  fun nothing => sound (List.append_eq_nil_iff.mp nothing).1

/-- At the end, a missing parenthesis is seen in place of the end. -/
theorem nextToken_closings (tokens : List Token) (m : Nat) :
    nextToken (tokens ++ closings m) = nextToken tokens ∨
      nextToken tokens = .endOfInput ∧ nextToken (tokens ++ closings m) = .symbol ")" := by
  cases tokens with
  | cons => exact .inl rfl
  | nil =>
    cases m with
    | zero => exact .inl rfl
    | succ => exact .inr ⟨rfl, rfl⟩

theorem takesInfix_closings {least m : Nat} (stops : takesInfix least (nextToken tokens) = none) :
    takesInfix least (nextToken (tokens ++ closings m)) = none := by
  rcases nextToken_closings tokens m with same | ⟨_, closing⟩
  · rwa [same]
  · rw [closing]
    exact (declines_symbol rfl (by decide)).1

theorem takesConditional_closings {least m : Nat}
    (stops : takesConditional least (nextToken tokens) = false) :
    takesConditional least (nextToken (tokens ++ closings m)) = false := by
  rcases nextToken_closings tokens m with same | ⟨_, closing⟩
  · rwa [same]
  · rw [closing]
    exact (declines_symbol rfl (by decide)).2

theorem tolerates_bareName (name : String) (stream : TokenStream) :
    Tolerates stream (bareName owner name stream) fun m =>
      bareName owner name (stream.closedBy m) := by
  rcases stream.sound_or with sound | ⟨fault, rfl⟩
  · obtain ⟨tokens, fault⟩ := stream
    have strict : ∀ m, bareName owner name ((⟨tokens, fault⟩ : TokenStream).closedBy m) = _ :=
      fun m => bareName_stream (sound_closings sound m)
    rw [bareName_stream sound]
    by_cases call : nextToken tokens = .symbol "("
    · rw [if_pos call]
      refine .of_error (by simp) ((strict 0).trans (if_pos ?_))
      rcases nextToken_closings tokens 0 with same | ⟨ended, _⟩
      · exact same.trans call
      · exact nomatch ended.symm.trans call
    · rw [if_neg call]
      refine .of_ok List.suffix_rfl rfl fun m => (strict m).trans (if_neg ?_)
      rcases nextToken_closings tokens m with same | ⟨_, closing⟩
      · rwa [same]
      · rw [closing]
        decide
  · exact .of_error (by simp) rfl

end

/-! ### The readers -/

section

variable (options : Options) (owner : Owner)

def ExprTolerates (depth least : Nat) (stream : TokenStream) : Prop :=
  .endOfInput ∉ stream.tokens →
    Tolerates stream (expr options.lenient owner depth least stream) fun m =>
      expr options.closed owner depth least (stream.closedBy m)

def InfixTailTolerates (depth least : Nat) (chain : Parsed TokenStream) : Prop :=
  .endOfInput ∉ chain.source.tokens →
    Tolerates chain.source (infixTail options.lenient owner depth least chain) fun m =>
      infixTail options.closed owner depth least (chain.closedBy m)

def ConditionalTailTolerates (depth least : Nat) (condition : Parsed TokenStream) : Prop :=
  .endOfInput ∉ condition.source.tokens →
    Tolerates condition.source (conditionalTail options.lenient owner depth least condition) fun m =>
      conditionalTail options.closed owner depth least (condition.closedBy m)

def OperandTolerates (depth : Nat) (stream : TokenStream) : Prop :=
  .endOfInput ∉ stream.tokens →
    Tolerates stream (operand options.lenient owner depth stream) fun m =>
      operand options.closed owner depth (stream.closedBy m)

def ValueTolerates (depth : Nat) (token : Token) (stream : TokenStream) : Prop :=
  .endOfInput ∉ stream.tokens →
    Tolerates stream (value options.lenient owner depth token stream) fun m =>
      value options.closed owner depth token (stream.closedBy m)

end

section

variable {options : Options} {owner : Owner} {depth least : Nat} {tokens : List Token}
  {fault : Option LexFault}

theorem expr_tolerates {stream : TokenStream}
    (operands : OperandTolerates options owner (depth + 1) stream)
    (tails : ∀ chain : Parsed TokenStream, left chain.source < left stream →
      InfixTailTolerates options owner (depth + 1) least chain ∧
        ConditionalTailTolerates options owner (depth + 1) least chain) :
    ExprTolerates options owner depth least stream := by
  intro clean
  simp only [expr_eq]
  by_cases limit : options.lenient.maxDepth ≤ depth
  · rw [if_pos limit]
    exact .of_error (by simp) (if_pos limit)
  · have strict : ¬options.closed.maxDepth ≤ depth := limit
    simp only [if_neg limit, if_neg strict]
    refine (operands clean).bind fun first read suffix _ => ?_
    have clean := fun bad => clean (suffix.subset bad)
    have fewer := left_of_operand read
    refine ((tails first fewer).1 clean).bind fun chain grown suffix _ => ?_
    have clean := fun bad => clean (suffix.subset bad)
    have fewer' := left_of_infixTail grown
    exact (tails chain (Nat.lt_of_le_of_lt fewer' fewer)).2 clean

theorem infixTail_tolerates {formula : Formula} {height : Nat}
    (exprs : ∀ least (later : TokenStream), left later < tokens.length →
      ExprTolerates options owner depth least later)
    (tails : ∀ grown : Parsed TokenStream, left grown.source < tokens.length →
      InfixTailTolerates options owner depth least grown) :
    InfixTailTolerates options owner depth least ⟨formula, height, ⟨tokens, fault⟩⟩ := by
  intro clean
  show Tolerates ⟨tokens, fault⟩ _ fun m =>
    infixTail options.closed owner depth least ⟨formula, height, ⟨tokens ++ closings m, fault⟩⟩
  cases taken : takesInfix least (nextToken tokens) with
  | none =>
    rcases TokenStream.sound_or ⟨tokens, fault⟩ with sound | ⟨late, broken⟩
    · rw [infixTail_end taken sound]
      exact .of_ok List.suffix_rfl rfl fun m =>
        infixTail_end (takesInfix_closings taken) (sound_closings sound m)
    · cases broken
      rw [infixTail_broken]
      exact .of_error (by simp) (infixTail_broken late)
  | some op =>
    cases tokens with
    | nil => cases taken
    | cons token tokens =>
      have taken : takesInfix least token = some op := taken
      have clean := fun bad => clean (List.mem_cons_of_mem token bad)
      simp only [List.cons_append, infixTail_more taken]
      refine Tolerates.cons ?_
      refine (exprs _ ⟨tokens, fault⟩ (Nat.lt_succ_self _) clean).bind fun right read suffix _ => ?_
      have clean := fun bad => clean (suffix.subset bad)
      refine (tolerates_node _ _ right.source).bind fun grown made _ _ => ?_
      have source := source_of_node made
      refine tails grown ?_ ?_
      · rw [source]
        exact Nat.lt_trans (left_of_expr read) (Nat.lt_succ_self _)
      · rwa [source]

theorem conditionalTail_tolerates {formula : Formula} {height : Nat}
    (exprs : ∀ least (later : TokenStream), left later < tokens.length →
      ExprTolerates options owner depth least later)
    (tails : ∀ grown : Parsed TokenStream, left grown.source < tokens.length →
      ConditionalTailTolerates options owner depth least grown) :
    ConditionalTailTolerates options owner depth least ⟨formula, height, ⟨tokens, fault⟩⟩ := by
  intro clean
  show Tolerates ⟨tokens, fault⟩ _ fun m =>
    conditionalTail options.closed owner depth least
      ⟨formula, height, ⟨tokens ++ closings m, fault⟩⟩
  cases taken : takesConditional least (nextToken tokens) with
  | false =>
    rcases TokenStream.sound_or ⟨tokens, fault⟩ with sound | ⟨late, broken⟩
    · rw [conditionalTail_end taken sound]
      exact .of_ok List.suffix_rfl rfl fun m =>
        conditionalTail_end (takesConditional_closings taken) (sound_closings sound m)
    · cases broken
      rw [conditionalTail_broken]
      exact .of_error (by simp) (conditionalTail_broken late)
  | true =>
    cases tokens with
    | nil => cases taken
    | cons token tokens =>
      have taken : takesConditional least token = true := taken
      have clean := fun bad => clean (List.mem_cons_of_mem token bad)
      simp only [List.cons_append, conditionalTail_more taken]
      refine Tolerates.cons ?_
      refine (exprs _ ⟨tokens, fault⟩ (Nat.lt_succ_self _) clean).bind fun first read suffix _ => ?_
      have clean := fun bad => clean (suffix.subset bad)
      have fewer : first.source.tokens.length < (token :: tokens).length :=
        Nat.lt_trans (left_of_expr read) (Nat.lt_succ_self _)
      dsimp only [Parsed.closedBy]
      refine tolerates_expect fun marker afterMarker begins _ => ?_
      rw [begins] at clean fewer
      have clean := fun bad => clean (List.mem_cons_of_mem marker bad)
      have fewer := Nat.lt_of_succ_lt fewer
      refine (exprs _ ⟨afterMarker, _⟩ fewer clean).bind fun second read' suffix _ => ?_
      have clean := fun bad => clean (suffix.subset bad)
      refine (tolerates_node _ _ second.source).bind fun grown made _ _ => ?_
      have source := source_of_node made
      refine tails grown ?_ ?_
      · rw [source]
        exact Nat.lt_trans (left_of_expr read') fewer
      · rwa [source]

theorem value_tolerates {token : Token} {stream : TokenStream}
    (exprs : ∀ least (later : TokenStream), left later < left stream →
      ExprTolerates options owner depth least later) :
    ValueTolerates options owner depth token stream := by
  intro clean
  simp only [value_eq]
  cases token with
  | symbol | string | endOfInput => exact .of_error (by simp) rfl
  | number digits => exact tolerates_number digits stream
  | name name =>
    dsimp only
    by_cases reference : isPropertyKind name = true
    · simp only [if_pos reference]
      exact tolerates_property name stream
    · simp only [if_neg reference]
      cases Builtin.ofSymbol? name with
      | none => exact tolerates_bareName name stream
      | some fn =>
        dsimp only
        refine tolerates_expect fun opening afterOpening begins _ => ?_
        rw [begins] at clean
        have clean := fun bad => clean (List.mem_cons_of_mem opening bad)
        have fewer : afterOpening.length < stream.tokens.length := by
          rw [begins]
          exact Nat.lt_succ_self _
        refine (exprs _ ⟨afterOpening, _⟩ fewer clean).bind fun first read suffix _ => ?_
        have clean := fun bad => clean (suffix.subset bad)
        have fewer : first.source.tokens.length < stream.tokens.length :=
          Nat.lt_trans (left_of_expr read) fewer
        dsimp only [Parsed.closedBy]
        refine tolerates_expect fun comma afterComma begins _ => ?_
        rw [begins] at clean fewer
        have clean := fun bad => clean (List.mem_cons_of_mem comma bad)
        have fewer := Nat.lt_of_succ_lt fewer
        refine (exprs _ ⟨afterComma, _⟩ fewer clean).bind fun second _ _ _ => ?_
        dsimp only [Parsed.closedBy]
        refine tolerates_expect fun closing rest _ _ => ?_
        exact tolerates_node _ _ ⟨rest, _⟩

theorem operand_tolerates
    (exprs : ∀ least (later : TokenStream), left later < tokens.length →
      ExprTolerates options owner depth least later)
    (values : ∀ token (later : TokenStream), left later < tokens.length →
      ValueTolerates options owner depth token later) :
    OperandTolerates options owner depth ⟨tokens, fault⟩ := by
  intro clean
  cases tokens with
  | nil =>
    cases fault with
    | none =>
      rw [operand_end]
      exact .of_error (by simp) operand_end
    | some fault =>
      rw [operand_broken]
      exact .of_error (by simp) (operand_broken fault)
  | cons token tokens =>
    have cleanRest : .endOfInput ∉ tokens := fun bad => clean (List.mem_cons_of_mem token bad)
    have inner := fun least => exprs least ⟨tokens, fault⟩ (Nat.lt_succ_self _) cleanRest
    have value := fun token => values token ⟨tokens, fault⟩ (Nat.lt_succ_self _) cleanRest
    show Tolerates ⟨token :: tokens, fault⟩ _ fun m =>
      operand options.closed owner depth ⟨token :: (tokens ++ closings m), fault⟩
    by_cases group : token = .symbol "("
    · subst group
      simp only [operand_group]
      exact tolerates_group cleanRest (inner 0)
    · simp only [operand_eq, lookahead_cons, ok_bind]
      cases token with
      | string | endOfInput => exact .of_error (by simp) rfl
      | number digits => exact (value (.number digits)).cons
      | name name => exact (value (.name name)).cons
      | symbol text =>
        have noGroup : text ≠ "(" := fun same => group (congrArg Token.symbol same)
        simp only [if_neg noGroup]
        cases PrefixOp.ofSymbol? text with
        | none => exact .of_error (by simp) rfl
        | some op => exact ((inner op.precedence).bind fun operand _ _ _ => tolerates_node _ _ _).cons

end

theorem readers_tolerate (options : Options) (owner : Owner) :
    (∀ depth least stream, ExprTolerates options owner depth least stream) ∧
      (∀ depth least chain, InfixTailTolerates options owner depth least chain) ∧
      (∀ depth least condition, ConditionalTailTolerates options owner depth least condition) ∧
      (∀ depth stream, OperandTolerates options owner depth stream) ∧
      ∀ depth token stream, ValueTolerates options owner depth token stream := by
  refine readers_induction ?_ ?_ ?_ ?_ ?_
  · intro depth least stream operands tails
    exact expr_tolerates (operands (depth + 1)) fun chain fewer => tails (depth + 1) least chain fewer
  · intro depth least chain exprs tails
    exact infixTail_tolerates (exprs depth) tails
  · intro depth least condition exprs tails
    exact conditionalTail_tolerates (exprs depth) tails
  · intro depth stream parts
    exact operand_tolerates (fun least later fewer => (parts depth least later fewer).1)
      fun token later fewer => (parts depth 0 later fewer).2 token
  · intro depth token stream exprs
    exact value_tolerates (exprs depth)

/-- Reading a whole formula with some parentheses left open is reading it with those parentheses behind
it, no fewer of which close them. -/
theorem readFormula_tolerates (options : Options) (owner : Owner) {stream : TokenStream}
    (clean : .endOfInput ∉ stream.tokens) :
    readFormula options.lenient owner stream ≠ .error unclosedAtEnd ∧
      ∃ missing ≤ openings stream.tokens, (missing ≠ 0 → stream.fault = none) ∧
        (∀ m < missing,
          readFormula options.closed owner (stream.closedBy m) = .error unclosedAtEnd) ∧
        readFormula options.closed owner (stream.closedBy missing) =
          readFormula options.lenient owner stream := by
  have whole := (readers_tolerate options owner).1 0 0 stream clean
  unfold readFormula
  generalize expr options.lenient owner 0 0 stream = read at whole
  cases whole with
  | @error missing fault _ opened sound other early late =>
    dsimp only at early late
    refine ⟨fun same => other (Except.error.inj same), missing, opened, sound, fun m less => ?_, ?_⟩
    · rw [early m less]
      rfl
    · rw [late]
      rfl
  | @ok missing parsed _ opened suffix fault ended early late =>
    dsimp only at early late
    refine ⟨?_, missing, Nat.le_trans (Nat.le_add_right ..) opened, fun some => ?_, fun m less => ?_, ?_⟩
    · rw [ok_bind]
      split
      · rcases parsed.source.sound_or with sound | ⟨fault, broken⟩
        · rw [lookahead_stream sound, ok_bind]
          split <;> exact nofun
        · rw [broken]
          exact nofun
      · exact nofun
    · rw [← fault, ended some]
    · rw [early m less]
      rfl
    · rw [← Nat.add_zero missing, late, parsed.closedBy_zero]
      rfl

end TableFormula
