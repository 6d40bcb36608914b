import TableFormula.Proofs.ReadingMonads
import TableFormula.Proofs.WholeFormula

namespace TableFormula

open TokenSource TokenMonad ReadingMonad

variable {σ : Type} [TokenSource σ]

/-! ### Steps that pay -/

/-- Steps that lead from tokens to those behind them: a formula is begun right behind a token, and a
turn takes two tokens. -/
inductive Spends : List Token → List (ReadStep σ) → List Token → Prop where
  | nothing (tokens : List Token) : Spends tokens [] tokens
  | take (token : Token) {tokens rest : List Token} {steps : List (ReadStep σ)} :
      Spends tokens steps rest → Spends (token :: tokens) (.take token :: steps) rest
  | call (token : Token) (depth : Nat) {source : σ} {tokens rest : List Token}
      {steps : List (ReadStep σ)} :
      unread source = tokens → Spends tokens steps rest →
      Spends (token :: tokens) (.take token :: .call depth source :: steps) rest
  | turn {before after : σ} {tokens rest : List Token} {steps : List (ReadStep σ)} :
      (unread after).length + 2 ≤ (unread before).length → Spends tokens steps rest →
      Spends tokens (.turn before after :: steps) rest

namespace Spends

variable {tokens between rest : List Token} {steps later : List (ReadStep σ)}

theorem append (spends : Spends tokens steps between) (more : Spends between later rest) :
    Spends tokens (steps ++ later) rest := by
  induction spends with
  | nothing tokens => exact more
  | take token _ ih => exact .take token (ih more)
  | call token depth same _ ih => exact .call token depth same (ih more)
  | turn paid _ ih => exact .turn paid (ih more)

theorem tokens_eq (spends : Spends tokens steps rest) :
    tokens = steps.filterMap ReadStep.token? ++ rest := by
  induction spends with
  | nothing tokens => rfl
  | take token _ ih => exact congrArg (token :: ·) ih
  | call token depth _ _ ih => exact congrArg (token :: ·) ih
  | turn _ _ ih => exact ih

theorem countP_isCall_le (spends : Spends tokens steps rest) :
    steps.countP ReadStep.isCall ≤ tokens.length := by
  induction spends with
  | nothing tokens => exact Nat.zero_le _
  | take token _ ih => exact Nat.le_succ_of_le ih
  | call token depth _ _ ih =>
    rw [List.countP_cons_of_neg Bool.false_ne_true, List.countP_cons_of_pos rfl, List.length_cons]
    exact Nat.succ_le_succ ih
  | turn _ _ ih => exact ih

/-- A formula is begun right behind a token, and what its source holds is what is left then. -/
theorem of_call (spends : Spends tokens steps rest) {front back : List (ReadStep σ)} {depth : Nat}
    {source : σ} (split : steps = front ++ .call depth source :: back) :
    ∃ before token, front = before ++ [.take token] ∧
      tokens = before.filterMap ReadStep.token? ++ token :: unread source := by
  induction spends generalizing front with
  | nothing tokens =>
    exact absurd split.symm (List.append_ne_nil_of_right_ne_nil _ (List.cons_ne_nil _ _))
  | take token _ ih =>
    obtain _ | ⟨first, front⟩ := front
    · cases split
    · obtain ⟨rfl, inside⟩ := List.cons.inj split
      obtain ⟨before, paid, rfl, rfl⟩ := ih inside
      exact ⟨.take token :: before, paid, rfl, rfl⟩
  | call token begun same _ ih =>
    obtain _ | ⟨first, _ | ⟨second, front⟩⟩ := front
    · cases split
    · cases split
      exact ⟨[], token, rfl, by rw [same]; rfl⟩
    · obtain ⟨rfl, inside⟩ := List.cons.inj split
      obtain ⟨rfl, later⟩ := List.cons.inj inside
      obtain ⟨before, paid, rfl, rfl⟩ := ih later
      exact ⟨.take token :: .call begun _ :: before, paid, rfl, rfl⟩
  | turn _ _ ih =>
    obtain _ | ⟨first, front⟩ := front
    · cases split
    · obtain ⟨rfl, inside⟩ := List.cons.inj split
      obtain ⟨before, paid, rfl, rfl⟩ := ih inside
      exact ⟨.turn _ _ :: before, paid, rfl, rfl⟩

theorem le_of_turn_mem (spends : Spends tokens steps rest) {before after : σ}
    (member : .turn before after ∈ steps) : (unread after).length + 2 ≤ (unread before).length := by
  induction spends with
  | nothing tokens => cases member
  | take token _ ih =>
    obtain _ | ⟨_, member⟩ := member
    exact ih member
  | call token depth _ _ ih =>
    obtain _ | ⟨_, _ | ⟨_, member⟩⟩ := member
    exact ih member
  | turn paid _ ih =>
    obtain _ | ⟨_, member⟩ := member
    · exact paid
    · exact ih member

end Spends

/-! ### Readings that pay -/

/-- The steps of a reading that takes so many tokens at least, if it succeeds. -/
def Pays (least : Nat) (source : σ) (steps : List (ReadStep σ))
    (result : Except ParseError (Parsed σ)) : Prop :=
  ∃ rest, Spends (unread source) steps rest ∧ ∀ parsed, result = .ok parsed →
    unread parsed.source = rest ∧ rest.length + least ≤ (unread source).length

theorem Pays.mono {m n : Nat} {source : σ} {steps : List (ReadStep σ)}
    {result : Except ParseError (Parsed σ)} (pays : Pays m source steps result) (fewer : n ≤ m) :
    Pays n source steps result := by
  obtain ⟨rest, spends, read⟩ := pays
  refine ⟨rest, spends, fun parsed ended => ?_⟩
  obtain ⟨same, taken⟩ := read parsed ended
  exact ⟨same, by omega⟩

def PaysAt (depth least : Nat) (source : σ) (reading : Recorded σ (Parsed σ)) : Prop :=
  Pays least source (reading.steps depth) (reading.result depth)

theorem unread_of_expect {what : Expectation} {source : σ} {ahead : Lookahead σ}
    (found : expect what source = .ok ahead) : unread source = ahead.token :: unread ahead.rest := by
  obtain ⟨next, looked, accepted⟩ := ok_of_bind found
  split at accepted
  · rename_i fits
    cases accepted
    refine unread_rest (lookahead_eq_ok.mp looked) fun atEnd => ?_
    rw [atEnd, Expectation.not_accepts_endOfInput] at fits
    cases fits
  · cases accepted

namespace PaysAt

variable {depth m n : Nat} {source : σ} {ahead : Lookahead σ} {reading : Recorded σ (Parsed σ)}

theorem fault (depth least : Nat) (source : σ) (fault : ParseError) :
    PaysAt depth least source (failWith fault) :=
  ⟨_, .nothing _, fun _ ended => nomatch ended⟩

/-- A result that is found without taking a token. -/
theorem kept {result : Except ParseError (Parsed σ)}
    (same : ∀ parsed, result = .ok parsed → unread parsed.source = unread source) :
    PaysAt depth 0 source (liftM result) :=
  ⟨_, .nothing _, fun parsed ended => ⟨same parsed ended, Nat.le_refl _⟩⟩

theorem done {parsed : Parsed σ} (same : unread parsed.source = unread source) :
    PaysAt depth 0 source (pure parsed) := by
  show PaysAt depth 0 source (liftM (.ok parsed : Except ParseError (Parsed σ)))
  refine kept fun parsed' ended => ?_
  cases ended
  exact same

theorem take (front : unread source = ahead.token :: unread ahead.rest)
    (pays : PaysAt depth n ahead.rest reading) :
    PaysAt depth (n + 1) source (take ahead >>= fun _ => reading) := by
  obtain ⟨rest, spends, read⟩ := pays
  refine ⟨rest, front ▸ .take ahead.token spends, fun parsed ended => ?_⟩
  obtain ⟨same, taken⟩ := read parsed ended
  rw [front, List.length_cons]
  exact ⟨same, by omega⟩

/-- Goes on behind what was read. -/
theorem after {f : Parsed σ → Recorded σ (Parsed σ)} (pays : PaysAt depth m source reading)
    (more : ∀ parsed, reading.result depth = .ok parsed → PaysAt depth n parsed.source (f parsed)) :
    PaysAt depth (m + n) source (reading >>= f) := by
  obtain ⟨between, spends, read⟩ := pays
  rw [PaysAt, Recorded.steps_bind, Recorded.result_bind]
  cases found : reading.result depth with
  | error fault =>
    exact ⟨between, (List.append_nil (reading.steps depth)).symm ▸ spends,
      fun _ ended => nomatch ended⟩
  | ok first =>
    obtain ⟨rfl, taken⟩ := read first found
    obtain ⟨rest, spendsMore, readMore⟩ := more first found
    refine ⟨rest, spends.append spendsMore, fun parsed ended => ?_⟩
    obtain ⟨same, takenMore⟩ := readMore parsed ended
    exact ⟨same, by omega⟩

/-- Goes on with what is found without taking a token. -/
theorem lifted {α : Type} {result : Except ParseError α} {f : α → Recorded σ (Parsed σ)}
    (more : ∀ a, result = .ok a → PaysAt depth n source (f a)) :
    PaysAt depth n source (liftM result >>= f) := by
  rw [PaysAt, Recorded.steps_bind, Recorded.result_bind]
  cases found : result with
  | error failed => exact fault depth n source failed
  | ok a => exact more a found

theorem peek {f : Lookahead σ → Recorded σ (Parsed σ)}
    (more : ∀ ahead, look source = .ok ahead → PaysAt depth n source (f ahead)) :
    PaysAt depth n source (liftM (lookahead source) >>= f) :=
  .lifted fun ahead found => more ahead (lookahead_eq_ok.mp found)

theorem expect {what : Expectation} {f : Lookahead σ → Recorded σ (Parsed σ)}
    (more : ∀ ahead, TableFormula.expect what source = .ok ahead →
      PaysAt depth n source (TokenMonad.take ahead >>= fun _ => f ahead)) :
    PaysAt depth n source (expectIn (Recorded σ) what source >>= f) := by
  rw [expectIn, bind_assoc]
  exact .lifted more

end PaysAt

/-! ### The readers -/

variable (options : Options) (owner : Owner)

/-- The steps of a formula begin with its beginning, and the others pay. -/
def ExprPays (depth least : Nat) (source : σ) : Prop :=
  ∃ inner, exprSteps options owner depth least source = .call depth source :: inner ∧
    Pays 1 source inner (expr options owner depth least source)

def InfixTailPays (depth least : Nat) (chain : Parsed σ) : Prop :=
  PaysAt depth 0 chain.source (infixTailIn (Recorded σ) options owner least chain)

def ConditionalTailPays (depth least : Nat) (condition : Parsed σ) : Prop :=
  PaysAt depth 0 condition.source (conditionalTailIn (Recorded σ) options owner least condition)

def OperandPays (depth : Nat) (source : σ) : Prop :=
  PaysAt depth 1 source (operandIn (Recorded σ) options owner source)

def ValuePays (depth : Nat) (token : Token) (source : σ) : Prop :=
  PaysAt depth 0 source (valueIn (Recorded σ) options owner token source)

section

variable {options owner} {depth least : Nat}

/-- Takes the token before a formula, reads the formula and goes on. -/
theorem ExprPays.begin {n : Nat} {source : σ} {ahead : Lookahead σ}
    {f : Parsed σ → Recorded σ (Parsed σ)}
    (pays : ExprPays options owner depth least ahead.rest)
    (front : unread source = ahead.token :: unread ahead.rest) (few : n ≤ 2)
    (more : ∀ parsed, expr options owner depth least ahead.rest = .ok parsed →
      (unread parsed.source).length + 2 ≤ (unread source).length →
      PaysAt depth 0 parsed.source (f parsed)) :
    PaysAt depth n source (take ahead >>= fun _ =>
      exprIn (Recorded σ) options owner least ahead.rest >>= f) := by
  obtain ⟨inner, begins, rest, spends, read⟩ := pays
  have steps : (take ahead >>= fun _ => exprIn (Recorded σ) options owner least ahead.rest).steps
      depth = .take ahead.token :: .call depth ahead.rest :: inner := by
    rw [← begins]
    rfl
  have result : (take ahead >>= fun _ => exprIn (Recorded σ) options owner least ahead.rest).result
      depth = expr options owner depth least ahead.rest := Recorded.result_exprIn ..
  have taken : ∀ parsed, expr options owner depth least ahead.rest = .ok parsed →
      unread parsed.source = rest ∧ rest.length + 2 ≤ (unread source).length := by
    intro parsed found
    obtain ⟨same, fewer⟩ := read parsed found
    rw [front, List.length_cons]
    exact ⟨same, by omega⟩
  have begun : PaysAt depth 2 source (take ahead >>= fun _ =>
      exprIn (Recorded σ) options owner least ahead.rest) := by
    refine ⟨rest, ?_, fun parsed found => taken parsed (result.symm.trans found)⟩
    rw [steps, front]
    exact .call ahead.token depth rfl spends
  rw [← bind_assoc]
  refine Pays.mono (PaysAt.after (n := 0) begun fun parsed found => ?_) few
  have accepted := result.symm.trans found
  obtain ⟨rfl, fewer⟩ := taken parsed accepted
  exact more parsed accepted fewer

theorem unread_of_node {formula : Formula} {height : Nat} {source : σ} {parsed : Parsed σ}
    (made : node options formula height source = .ok parsed) :
    unread parsed.source = unread source := by
  rw [source_of_node made]

theorem unread_of_bareName {name : String} {source : σ} {parsed : Parsed σ}
    (read : bareName owner name source = .ok parsed) : unread parsed.source = unread source := by
  obtain ⟨ahead, looked, read⟩ := ok_of_bind read
  split at read
  · cases read
  · cases read
    exact unread_held (lookahead_eq_ok.mp looked)

/-- A turn that took two tokens ends, and the loop goes on. -/
theorem PaysAt.turned {before after : σ} {formula : Formula} {height : Nat}
    {f : Parsed σ → Recorded σ (Parsed σ)}
    (paid : (unread after).length + 2 ≤ (unread before).length)
    (more : ∀ grown : Parsed σ, grown.source = after → PaysAt depth 0 grown.source (f grown)) :
    PaysAt depth 0 after (liftM (node options formula height after) >>= fun grown =>
      turn before grown.source >>= fun _ => f grown) := by
  refine .lifted fun grown made => ?_
  obtain rfl := source_of_node made
  obtain ⟨rest, spends, read⟩ := more grown rfl
  exact ⟨rest, .turn paid spends, read⟩

theorem closeParenthesis_pays (inner : Parsed σ) :
    PaysAt depth 0 inner.source (closeParenthesisIn (Recorded σ) options inner) := by
  rw [closeParenthesisIn_eq]
  refine .peek fun ahead looked => ?_
  split
  · rename_i closing
    have front := unread_rest looked (Token.ne_endOfInput_of_isSymbol closing)
    exact Pays.mono (PaysAt.take front (.done rfl)) (Nat.zero_le 1)
  · split
    · exact .done (unread_held looked)
    · exact .fault depth 0 _ _

theorem property_pays (kind : String) (source : σ) :
    PaysAt depth 5 source (propertyIn (Recorded σ) kind source) := by
  rw [propertyIn_eq]
  exact .expect fun _ opening => .take (unread_of_expect opening) <|
    .expect fun _ name => .take (unread_of_expect name) <|
      .expect fun _ dot => .take (unread_of_expect dot) <|
        .expect fun _ qualifier => .take (unread_of_expect qualifier) <|
          .expect fun _ closing => .take (unread_of_expect closing) (.done rfl)

theorem expr_pays {source : σ} (operandPays : OperandPays options owner (depth + 1) source)
    (tailsPay : ∀ chain : Parsed σ, left chain.source < left source →
      InfixTailPays options owner (depth + 1) least chain ∧
        ConditionalTailPays options owner (depth + 1) least chain) :
    ExprPays options owner depth least source := by
  refine ⟨_, by rw [exprSteps, exprIn_eq, Recorded.steps_nested], ?_⟩
  rw [← Recorded.result_exprIn, exprIn_eq, Recorded.result_nested]
  split
  · exact PaysAt.fault depth 1 source _
  · refine PaysAt.after (n := 0) operandPays fun first read => ?_
    rw [Recorded.result_operandIn] at read
    have below := left_of_operand read
    refine PaysAt.after (n := 0) (tailsPay first below).1 fun chain grown => ?_
    rw [Recorded.result_infixTailIn] at grown
    exact (tailsPay chain (Nat.lt_of_le_of_lt (left_of_infixTail grown) below)).2

theorem infixTail_pays {chain : Parsed σ}
    (exprPays : ∀ (least : Nat) (source : σ), left source < left chain.source →
      ExprPays options owner depth least source)
    (tailPays : ∀ grown : Parsed σ, left grown.source < left chain.source →
      InfixTailPays options owner depth least grown) :
    InfixTailPays options owner depth least chain := by
  rw [InfixTailPays, infixTailIn_eq]
  refine .peek fun ahead looked => ?_
  split
  · exact .done (unread_held looked)
  · rename_i op taken
    have proper := ne_endOfInput_of_takesInfix taken
    have below := left_rest looked proper
    refine (exprPays op.operandLevel _ below).begin (unread_rest looked proper) (by decide) ?_
    intro right read paid
    refine .turned paid fun grown same => tailPays grown ?_
    rw [same]
    exact Nat.lt_trans (left_of_expr read) below

theorem conditionalTail_pays {condition : Parsed σ}
    (exprPays : ∀ (least : Nat) (source : σ), left source < left condition.source →
      ExprPays options owner depth least source)
    (tailPays : ∀ grown : Parsed σ, left grown.source < left condition.source →
      ConditionalTailPays options owner depth least grown) :
    ConditionalTailPays options owner depth least condition := by
  rw [ConditionalTailPays, conditionalTailIn_eq]
  refine .peek fun ahead looked => ?_
  split
  · rename_i taken
    have proper := ne_endOfInput_of_takesConditional taken
    have below := left_rest looked proper
    refine (exprPays 0 _ below).begin (unread_rest looked proper) (by decide) ?_
    intro first readFirst paidFirst
    refine .expect fun marker marked => ?_
    have belowMarker : left marker.rest < left condition.source :=
      Nat.lt_trans (left_of_expect marked) (Nat.lt_trans (left_of_expr readFirst) below)
    refine (exprPays 0 _ belowMarker).begin (unread_of_expect marked) (by decide) ?_
    intro second readSecond paidSecond
    refine .turned (by omega) fun grown same => tailPays grown ?_
    rw [same]
    exact Nat.lt_trans (left_of_expr readSecond) belowMarker
  · exact .done (unread_held looked)

theorem operand_pays {source : σ}
    (laterPays : ∀ (least : Nat) (later : σ), left later < left source →
      ExprPays options owner depth least later ∧ ∀ token, ValuePays options owner depth token later) :
    OperandPays options owner depth source := by
  rw [OperandPays, operandIn_eq]
  refine .peek fun ahead looked => ?_
  have taken : ahead.token ≠ .endOfInput →
      unread source = ahead.token :: unread ahead.rest ∧ left ahead.rest < left source :=
    fun proper => ⟨unread_rest looked proper, left_rest looked proper⟩
  obtain ⟨token, held, rest⟩ := ahead
  cases token with
  | symbol text =>
    obtain ⟨front, below⟩ := taken Token.noConfusion
    dsimp only
    split
    · refine (laterPays 0 rest below).1.begin front (by decide) fun inner _ _ => ?_
      exact closeParenthesis_pays inner
    · cases PrefixOp.ofSymbol? text with
      | some op =>
        refine (laterPays op.precedence rest below).1.begin front (by decide) fun operand _ _ => ?_
        exact .kept fun _ => unread_of_node
      | none => exact .fault depth 1 source _
  | number digits =>
    obtain ⟨front, below⟩ := taken Token.noConfusion
    exact .take front ((laterPays 0 rest below).2 _)
  | name name =>
    obtain ⟨front, below⟩ := taken Token.noConfusion
    exact .take front ((laterPays 0 rest below).2 _)
  | string | endOfInput => exact .fault depth 1 source _

theorem value_pays {token : Token} {source : σ}
    (exprPays : ∀ (least : Nat) (later : σ), left later < left source →
      ExprPays options owner depth least later) :
    ValuePays options owner depth token source := by
  rw [ValuePays, valueIn_eq]
  cases token with
  | name name =>
    dsimp only
    split
    · exact Pays.mono (property_pays name source) (Nat.zero_le _)
    · cases Builtin.ofSymbol? name with
      | some fn =>
        refine .expect fun opening opened => ?_
        have below := left_of_expect opened
        refine (exprPays 0 _ below).begin (unread_of_expect opened) (by decide) ?_
        intro first readFirst _
        refine .expect fun comma divided => ?_
        have belowComma : left comma.rest < left source :=
          Nat.lt_trans (left_of_expect divided) (Nat.lt_trans (left_of_expr readFirst) below)
        refine (exprPays 0 _ belowComma).begin (unread_of_expect divided) (by decide) ?_
        intro second _ _
        refine .expect fun closing closed => ?_
        exact Pays.mono (PaysAt.take (unread_of_expect closed) (.kept fun _ => unread_of_node))
          (Nat.zero_le 1)
      | none => exact .kept fun _ => unread_of_bareName
  | number digits => exact .kept fun parsed read => by rw [source_of_number read]
  | symbol | string | endOfInput => exact .fault depth 0 source _

end

theorem readers_pay :
    (∀ depth least (source : σ), ExprPays options owner depth least source) ∧
      (∀ depth least (chain : Parsed σ), InfixTailPays options owner depth least chain) ∧
      (∀ depth least (condition : Parsed σ),
        ConditionalTailPays options owner depth least condition) ∧
      (∀ depth (source : σ), OperandPays options owner depth source) ∧
      ∀ depth token (source : σ), ValuePays options owner depth token source := by
  refine readers_induction ?_ ?_ ?_ ?_ ?_
  · intro depth least source operandPays tailsPay
    exact expr_pays (operandPays (depth + 1)) (tailsPay (depth + 1) least)
  · intro depth least chain exprPays tailPays
    exact infixTail_pays (exprPays depth) tailPays
  · intro depth least condition exprPays tailPays
    exact conditionalTail_pays (exprPays depth) tailPays
  · intro depth source laterPays
    exact operand_pays (laterPays depth)
  · intro depth token source exprPays
    exact value_pays (exprPays depth)

theorem Lexer.unread_of_shows {lexer : Lexer} {stream : TokenStream} (shows : lexer.Shows stream)
    (clean : .endOfInput ∉ stream.tokens) : unread lexer = stream.tokens := by
  obtain ⟨tokens, fault⟩ := stream
  induction tokens generalizing lexer with
  | nil =>
    have looked := look_shows shows
    cases found : lexer.look with
    | error failed => rw [unread_of_fault found]
    | ok ahead =>
      rw [found] at looked
      cases fault with
      | none =>
        cases looked with
        | ok alike => rw [unread_of_look found, if_pos alike.token]
      | some fault =>
        cases looked
  | cons token tokens ih =>
    have looked := look_shows shows
    cases found : lexer.look with
    | error failed =>
      rw [found] at looked
      cases looked with
      | escaped _ stopped => exact stopped.elim
    | ok ahead =>
      rw [found] at looked
      cases looked with
      | ok alike =>
        have proper : ahead.token ≠ .endOfInput := fun atEnd =>
          clean (List.mem_cons.mpr (.inl (atEnd.symm.trans alike.token)))
        rw [unread_rest found proper, alike.token,
          ih alike.rest fun member => clean (List.mem_cons_of_mem _ member)]

/-- Reading a text takes some of its tokens from the front, or all where nothing may follow a formula that
is read, and begins one formula at most without taking one. -/
theorem Parser.steps_spend (parser : Parser) (owner : Owner) (text : String) :
    ∃ inner rest, Spends (TokenStream.ofText text).tokens inner rest ∧
      (parser.steps owner text = inner ∨ ∃ start, parser.steps owner text = .call 0 start :: inner) ∧
      (parser.options.rejectTrailing = true →
        ∀ formula, parser.parseFor owner text = .ok formula → rest = []) := by
  rw [TokenStream.ofText_tokens]
  unfold steps parseFor
  cases Text.trim text.toList with
  | nil =>
    rw [show TokenStream.ofChars 0 [] = { tokens := [] } from TokenStream.ofChars_blank rfl]
    exact ⟨[], [], .nothing [], .inl rfl, fun _ _ _ => rfl⟩
  | cons c cs =>
    have shows : ({ rest := c :: cs } : Lexer).Shows (.ofChars 0 (c :: cs)) := rfl
    obtain ⟨inner, begins, rest, spends, read⟩ :=
      (readers_pay parser.options owner).1 0 0 ({ rest := c :: cs } : Lexer)
    rw [Lexer.unread_of_shows shows (TokenStream.endOfInput_notMem _ _)] at spends
    refine ⟨inner, rest, spends, .inr ⟨_, begins⟩, fun strict formula accepted => ?_⟩
    obtain ⟨parsed, readParsed, ended⟩ := ok_of_bind accepted
    obtain ⟨rfl, -⟩ := read parsed readParsed
    rw [strict] at ended
    obtain ⟨ahead, looked, ended⟩ := ok_of_bind ended
    split at ended
    · rename_i atEnd
      rw [unread_of_look (lookahead_eq_ok.mp looked), if_pos (Token.isEnd_iff.mp atEnd)]
    · cases ended

/-- Where nothing may follow a formula, the text of one has each of its tokens taken. -/
theorem Parser.filterMap_steps_of_parseFor {parser : Parser} {owner : Owner} {text : String} {formula : Formula}
    (strict : parser.options.rejectTrailing = true)
    (accepted : parser.parseFor owner text = .ok formula) :
    (parser.steps owner text).filterMap ReadStep.token? = (TokenStream.ofText text).tokens := by
  obtain ⟨inner, rest, spends, begins, whole⟩ := parser.steps_spend owner text
  obtain rfl := whole strict formula accepted
  rw [spends.tokens_eq, List.append_nil]
  obtain same | ⟨start, same⟩ := begins
  · rw [same]
  · rw [same]
    rfl

/-- A formula that is begun inside another one is begun right behind a token of its own, with fewer
tokens to read than that one, and every turn of a loop takes two tokens or more. A formula that is read
takes the tokens in its steps, one at least. The tokens that a reading takes are the first ones of its
text, so that it begins no more formulas than the text has tokens, and one, whatever the limit of depth
is. -/
theorem steps_take_tokens (parser : Parser) (owner : Owner) (text : String) :
    (∀ (depth least : Nat) (source : Lexer), ∃ inner,
      exprSteps parser.options owner depth least source = .call depth source :: inner ∧
        (∀ front nested later back, inner = front ++ .call nested later :: back →
          (unread later).length < (unread source).length ∧
            ∃ before token, front = before ++ [.take token] ∧
              unread source = before.filterMap ReadStep.token? ++ token :: unread later) ∧
        (∀ before after, .turn before after ∈ inner →
          (unread after).length + 2 ≤ (unread before).length) ∧
        ∀ parsed, expr parser.options owner depth least source = .ok parsed →
          inner.filterMap ReadStep.token? ≠ [] ∧
            unread source = inner.filterMap ReadStep.token? ++ unread parsed.source) ∧
    (parser.steps owner text).filterMap ReadStep.token? <+: (TokenStream.ofText text).tokens ∧
    (parser.steps owner text).countP ReadStep.isCall ≤ (TokenStream.ofText text).tokens.length + 1 := by
  refine ⟨fun depth least source => ?_, ?_⟩
  · obtain ⟨inner, begins, rest, spends, read⟩ :=
      (readers_pay parser.options owner).1 depth least source
    refine ⟨inner, begins, fun front nested later back split => ?_,
      fun before after => spends.le_of_turn_mem, fun parsed accepted => ?_⟩
    · obtain ⟨before, token, paid, tokens⟩ := spends.of_call split
      refine ⟨?_, before, token, paid, tokens⟩
      rw [tokens, List.length_append, List.length_cons]
      omega
    · obtain ⟨rfl, taken⟩ := read parsed accepted
      have tokens := spends.tokens_eq
      refine ⟨fun none => ?_, tokens⟩
      rw [none, List.nil_append] at tokens
      rw [tokens] at taken
      exact absurd taken (Nat.not_succ_le_self _)
  · obtain ⟨inner, rest, spends, same | ⟨start, same⟩, -⟩ := parser.steps_spend owner text
    · rw [same]
      exact ⟨⟨rest, spends.tokens_eq.symm⟩, Nat.le_succ_of_le spends.countP_isCall_le⟩
    · rw [same]
      refine ⟨⟨rest, spends.tokens_eq.symm⟩, ?_⟩
      rw [List.countP_cons_of_pos rfl]
      exact Nat.succ_le_succ spends.countP_isCall_le

/-- In `(1+2)` a formula is begun behind the parenthesis, and another one behind the sign, which ends a
turn of the loop. -/
theorem steps_take_tokens_group :
    (({} : Parser).steps {} "(1+2)").countP ReadStep.isCall ≤ 6 ∧
      ∃ inner nested back before after parsed,
        exprSteps {} {} 0 0 (Lexer.ofText "(1+2)") = .call 0 (Lexer.ofText "(1+2)") :: inner ∧
        inner = [.take (.symbol "(")] ++ .call 1 nested :: back ∧
        (unread nested).length < (unread (Lexer.ofText "(1+2)")).length ∧
        .turn before after ∈ inner ∧ (unread after).length + 2 ≤ (unread before).length ∧
        expr {} {} 0 0 (Lexer.ofText "(1+2)") = .ok parsed ∧
        unread (Lexer.ofText "(1+2)") ≠ unread parsed.source := by
  have spells : (Phrase.group (.between .add (.number "1") (.number "2"))).Spells "(1+2)" :=
    ⟨by decide, by decide, by decide +kernel⟩
  have accepted := parseFor_of_spells {} {} spells
  rw [if_pos (by decide)] at accepted
  obtain ⟨parsed, read, -⟩ :=
    ok_of_bind (x := expr {} {} 0 0 (Lexer.ofText "(1+2)")) accepted
  obtain ⟨readings, -, few⟩ := steps_take_tokens {} {} "(1+2)"
  have five : (TokenStream.ofText "(1+2)").tokens.length = 5 := by rw [spells.stream]; rfl
  rw [five] at few
  obtain ⟨inner, begins, calls, turns, taken⟩ := readings 0 0 (Lexer.ofText "(1+2)")
  have opening : lookahead (Lexer.ofText "(1+2)") =
      .ok ⟨.symbol "(", { rest := ['1', '+', '2', ')'], position := 1, peeked := some (.symbol "(") },
        { rest := ['1', '+', '2', ')'], position := 1 }⟩ := rfl
  have plus : lookahead ({ rest := ['+', '2', ')'], position := 2 } : Lexer) =
      .ok ⟨.symbol "+", { rest := ['2', ')'], position := 3, peeked := some (.symbol "+") },
        { rest := ['2', ')'], position := 3 }⟩ := rfl
  have number : operand {} {} 2 ({ rest := ['1', '+', '2', ')'], position := 1 } : Lexer) =
      .ok (leaf (.constant 1) { rest := ['+', '2', ')'], position := 2 }) := by
    rw [operand_eq]
    refine (value_eq {} {} 2 ({ rest := ['+', '2', ')'], position := 2 } : Lexer) _).trans ?_
    rfl
  obtain ⟨group, chain, readGroup, -, steps⟩ := Recorded.exprSteps_of_ok read
  obtain ⟨sum, closing, readSum, groupSteps⟩ := Recorded.steps_operandIn_group opening rfl readGroup
  obtain ⟨one, both, readOne, readBoth, sumSteps⟩ := Recorded.exprSteps_of_ok readSum
  obtain rfl := Except.ok.inj (number.symm.trans readOne)
  obtain ⟨next, later, turn⟩ := Recorded.steps_infixTailIn_of_taken plus rfl readBoth
  rw [begins, groupSteps, sumSteps, turn] at steps
  obtain ⟨-, split⟩ := List.cons.inj steps
  obtain ⟨fewer, -⟩ := calls [.take (.symbol "(")] 1 _ _ split
  obtain ⟨some, same⟩ := taken parsed read
  have turned : .turn { rest := ['+', '2', ')'], position := 2 } next ∈ inner := by
    rw [split]
    simp [leaf]
  refine ⟨few, inner, _, _, _, next, parsed, begins, split, fewer, turned, turns _ _ turned, read, ?_⟩
  rw [same]
  exact fun none => some (List.append_left_eq_self.mp none)

end TableFormula
