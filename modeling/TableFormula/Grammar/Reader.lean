import TableFormula.Grammar.Basic

/-!
# Reading a formula

    expr     ::=  operand (INFIX expr)* ('?' expr ':' expr)*
    operand  ::=  '(' expr ')'  |  PREFIX expr  |  NUMBER  |  NAME
               |  KIND '(' STRING '.' NAME ')'  |  FUNCTION '(' expr ',' expr ')'

A formula is read from left to right with one token of lookahead. Each place in it has a level, and
takes only operators that bind at least as tightly; the others are left to a place around it. The
depth of the reading and the height of every tree stay within the options' limit.

There is one reader for every monad that keeps the depth (`exprIn` and those beside it), with one
equation for each production. `expr` is the reader in the monad that is told its depth.
-/

namespace TableFormula

open TokenSource

/-! ### Monads to read in -/

/-- A monad that may note which tokens are taken. -/
class TokenMonad (σ : Type) (m : Type → Type) where
  take (ahead : Lookahead σ) : m Unit

/-- A monad that keeps the depth of a reading, and may note how the reading goes. -/
class ReadingMonad (σ : Type) (m : Type → Type) extends TokenMonad σ m where
  /-- Reads the inside of the formula that begins at the source, one level deeper. -/
  nested {α : Type} (options : Options) (source : σ) (inside : m α) : m α
  /-- A turn of a loop over operators went from the one source to the other. -/
  turn (before after : σ) : m Unit

class LawfulReadingMonad (σ : Type) (m : Type → Type) [Monad m] [ReadingMonad σ m] : Prop where
  map_nested {α β : Type} (f : α → β) (options : Options) (source : σ) (inside : m α) :
    f <$> ReadingMonad.nested options source inside =
      ReadingMonad.nested options source (f <$> inside)

open TokenMonad ReadingMonad

instance {σ : Type} : TokenMonad σ (Except ParseError) where
  take _ := pure ()

/-- A reading that is told how many formulas are around it. -/
abbrev Told := ReaderT Nat (Except ParseError)

instance {σ : Type} : ReadingMonad σ Told where
  nested options _ inside depth :=
    if options.maxDepth ≤ depth then .error (.tooDeep options.maxDepth) else inside (depth + 1)
  take _ := pure ()
  turn _ _ := pure ()

instance {σ : Type} : LawfulReadingMonad σ Told where
  map_nested f options source inside := by
    funext depth
    show Except.map f (if options.maxDepth ≤ depth then _ else _) = if _ then _ else _
    split <;> rfl

/-- A result together with where it came from. -/
def traced {ε α : Type} (result : Except ε α) : Except ε { value : α // result = .ok value } :=
  match result with
  | .ok value => .ok ⟨value, rfl⟩
  | .error fault => .error fault

/-! ### Readers that carry a bound

Every formula takes a token, so that the reading ends whatever the limit is. -/

section

variable {σ : Type} [TokenSource σ] {m : Type → Type} [Monad m] [MonadLiftT (Except ParseError) m]
  (options : Options) (owner : Owner)

def failWith {α : Type} (fault : ParseError) : m α := liftM (.error fault : Except ParseError α)

section

variable [TokenMonad σ m]

/-- Takes a token that the grammar fixes. -/
def expectTraced (what : Expectation) (source : σ) :
    m { ahead : Lookahead σ // expect what source = .ok ahead } := do
  let found ← traced (expect what source)
  take found.val
  return found

def closeParenthesisBelow (inner : Parsed σ) : m (ParsedBelow σ (left inner.source + 1)) := do
  let ⟨ahead, found⟩ ← traced (lookahead inner.source)
  have looked := lookahead_eq_ok.mp found
  if closing : ahead.token.isSymbol ")" then
    take ahead
    have proper := Token.ne_endOfInput_of_isSymbol closing
    return ⟨{ inner with source := ahead.rest }, Nat.lt_succ_of_lt (left_rest looked proper)⟩
  else if ahead.token.isEnd && options.allowUnclosedParens then
    return ⟨{ inner with source := ahead.held }, Nat.lt_succ_of_le (left_held looked)⟩
  else failWith (.unclosedParenthesis ahead.token)

def propertyBelow (kind : String) (source : σ) : m (ParsedBelow σ (left source)) := do
  let ⟨opening, opened⟩ ← expectTraced .openReference source
  have := left_of_expect opened
  let ⟨name, named⟩ ← expectTraced .referenceName opening.rest
  have := left_of_expect named
  let ⟨dot, dotted⟩ ← expectTraced .referenceDot name.rest
  have := left_of_expect dotted
  let ⟨qualifier, qualified⟩ ← expectTraced .referenceQualifier dot.rest
  have := left_of_expect qualified
  let ⟨closing, closed⟩ ← expectTraced .closeReference qualifier.rest
  have := left_of_expect closed
  return ⟨leaf (.property ⟨kind, name.token.text, qualifier.token.text⟩) closing.rest,
    by simp only [leaf]; omega⟩

end

variable [ReadingMonad σ m]

mutual

def exprBelow (least : Nat) (source : σ) : m (ParsedBelow σ (left source)) :=
  nested options source do
    let ⟨first, _⟩ ← operandBelow source
    let ⟨chain, _⟩ ← infixTailBelow least first
    let ⟨whole, _⟩ ← conditionalTailBelow least chain
    return ⟨whole, by omega⟩
termination_by (left source, 2)

def infixTailBelow (least : Nat) (chain : Parsed σ) :
    m (ParsedBelow σ (left chain.source + 1)) := do
  let ⟨ahead, found⟩ ← traced (lookahead chain.source)
  have looked := lookahead_eq_ok.mp found
  match taken : takesInfix least ahead.token with
  | none => return ⟨{ chain with source := ahead.held }, Nat.lt_succ_of_le (left_held looked)⟩
  | some op =>
    take ahead
    have := left_rest looked (ne_endOfInput_of_takesInfix taken)
    let ⟨right, _⟩ ← exprBelow op.operandLevel ahead.rest
    let ⟨grown, made⟩ ← traced (node options
      (.binary (.between op) chain.formula right.formula) (max chain.height right.height)
      right.source)
    turn chain.source grown.source
    have := congrArg left (source_of_node made)
    let ⟨whole, _⟩ ← infixTailBelow least grown
    return ⟨whole, by omega⟩
termination_by (left chain.source, 1)

def conditionalTailBelow (least : Nat) (condition : Parsed σ) :
    m (ParsedBelow σ (left condition.source + 1)) := do
  let ⟨ahead, found⟩ ← traced (lookahead condition.source)
  have looked := lookahead_eq_ok.mp found
  if taken : takesConditional least ahead.token then
    take ahead
    have := left_rest looked (ne_endOfInput_of_takesConditional taken)
    let ⟨first, _⟩ ← exprBelow Conditional.operandLevel ahead.rest
    let ⟨marker, marked⟩ ← expectTraced .conditionalMarker first.source
    have := left_of_expect marked
    let ⟨second, _⟩ ← exprBelow Conditional.operandLevel marker.rest
    let ⟨grown, made⟩ ← traced (node options
      (.conditional condition.formula first.formula second.formula)
      (max (max condition.height first.height) second.height) second.source)
    turn condition.source grown.source
    have := congrArg left (source_of_node made)
    let ⟨whole, _⟩ ← conditionalTailBelow least grown
    return ⟨whole, by omega⟩
  else return ⟨{ condition with source := ahead.held }, Nat.lt_succ_of_le (left_held looked)⟩
termination_by (left condition.source, 1)

def operandBelow (source : σ) : m (ParsedBelow σ (left source)) := do
  let ⟨ahead, found⟩ ← traced (lookahead source)
  have looked := lookahead_eq_ok.mp found
  match start : ahead.token with
  | .symbol text =>
    have := left_rest looked (by rw [start]; simp)
    if text = "(" then
      take ahead
      let ⟨inner, _⟩ ← exprBelow 0 ahead.rest
      let ⟨closed, _⟩ ← closeParenthesisBelow options inner
      return ⟨closed, by omega⟩
    else
      match PrefixOp.ofSymbol? text with
      | some op =>
        take ahead
        let ⟨operand, _⟩ ← exprBelow op.precedence ahead.rest
        let ⟨grown, made⟩ ← traced (node options (.unary op operand.formula) operand.height
          operand.source)
        have := congrArg left (source_of_node made)
        return ⟨grown, by omega⟩
      | none => failWith (.unexpectedToken (.symbol text))
  | .number digits =>
    take ahead
    have := left_rest looked (by rw [start]; simp)
    let ⟨value, _⟩ ← valueBelow (.number digits) ahead.rest
    return ⟨value, by omega⟩
  | .name name =>
    take ahead
    have := left_rest looked (by rw [start]; simp)
    let ⟨value, _⟩ ← valueBelow (.name name) ahead.rest
    return ⟨value, by omega⟩
  | found => failWith (.unexpectedToken found)
termination_by (left source, 1)

def valueBelow (token : Token) (source : σ) : m (ParsedBelow σ (left source + 1)) :=
  match token with
  | .number digits => do
    let ⟨value, read⟩ ← traced (number digits source)
    have := congrArg left (source_of_number read)
    return ⟨value, by omega⟩
  | .name name =>
    if isPropertyKind name then do
      let ⟨value, _⟩ ← propertyBelow name source
      return ⟨value, by omega⟩
    else
      match Builtin.ofSymbol? name with
      | some fn => do
        let ⟨opening, opened⟩ ← expectTraced .openCall source
        have := left_of_expect opened
        let ⟨first, _⟩ ← exprBelow 0 opening.rest
        let ⟨comma, divided⟩ ← expectTraced .callComma first.source
        have := left_of_expect divided
        let ⟨second, _⟩ ← exprBelow 0 comma.rest
        let ⟨closing, closed⟩ ← expectTraced .closeCall second.source
        have := left_of_expect closed
        let ⟨grown, made⟩ ← traced (node options (.binary (.call fn) first.formula second.formula)
          (max first.height second.height) closing.rest)
        have := congrArg left (source_of_node made)
        return ⟨grown, by omega⟩
      | none => do
        let ⟨value, read⟩ ← traced (bareName owner name source)
        return ⟨value, Nat.lt_succ_of_le (left_of_bareName read)⟩
  | token => failWith (.notAValue token)
termination_by (left source, 2)

end

end

/-! ### The readers -/

section

variable {σ : Type} [TokenSource σ] (m : Type → Type) [Monad m] [MonadLiftT (Except ParseError) m]
  (options : Options) (owner : Owner)

section

variable [TokenMonad σ m]

def expectIn (what : Expectation) (source : σ) : m (Lookahead σ) := do
  let ahead ← expect what source
  take ahead
  return ahead

def closeParenthesisIn (inner : Parsed σ) : m (Parsed σ) :=
  (·.val) <$> closeParenthesisBelow options inner

def propertyIn (kind : String) (source : σ) : m (Parsed σ) := (·.val) <$> propertyBelow kind source

end

variable [ReadingMonad σ m]

/-- Reads a formula whose operators outside parentheses have the precedence `least` or more. -/
def exprIn (least : Nat) (source : σ) : m (Parsed σ) :=
  (·.val) <$> exprBelow options owner least source

/-- Reads the infix operators behind an operand, and theirs. -/
def infixTailIn (least : Nat) (chain : Parsed σ) : m (Parsed σ) :=
  (·.val) <$> infixTailBelow options owner least chain

/-- Reads the conditionals behind their condition. -/
def conditionalTailIn (least : Nat) (condition : Parsed σ) : m (Parsed σ) :=
  (·.val) <$> conditionalTailBelow options owner least condition

/-- Reads a formula without operators outside parentheses, other than one before it. -/
def operandIn (source : σ) : m (Parsed σ) := (·.val) <$> operandBelow options owner source

/-- Reads the value that a token before the source begins. -/
def valueIn (token : Token) (source : σ) : m (Parsed σ) :=
  (·.val) <$> valueBelow options owner token source

end

/-! ### Equations in a lawful monad -/

section

variable {m : Type → Type} [Monad m] [LawfulMonad m] {α β : Type} {p : α → Prop} {q : β → Prop}

theorem map_val_bind {x : m { a // p a }} {f : { a // p a } → m { b // q b }} {g : α → m β}
    (same : ∀ a, (·.val) <$> f a = g a.val) : (·.val) <$> (x >>= f) = (·.val) <$> x >>= g := by
  rw [map_bind, bind_map_left]
  exact bind_congr same

theorem map_val_note {x : m Unit} {f : Unit → m { b // q b }} {g : Unit → m β}
    (same : (·.val) <$> f () = g ()) : (·.val) <$> (x >>= f) = x >>= g := by
  rw [map_bind]
  exact bind_congr fun _ => same

theorem map_val_last {x : m { a // p a }} {q : α → Prop} {f : { a // p a } → m { a // q a }}
    (same : ∀ a, (·.val) <$> f a = pure a.val) : (·.val) <$> (x >>= f) = (·.val) <$> x := by
  rw [map_val_bind same, bind_pure]

variable [MonadLiftT (Except ParseError) m] [LawfulMonadLiftT (Except ParseError) m]

theorem map_val_traced {x : Except ParseError α} {f : { a // x = .ok a } → m { b // q b }}
    {g : α → m β} (same : ∀ a found, (·.val) <$> f ⟨a, found⟩ = g a) :
    (·.val) <$> (liftM (traced x) >>= f) = liftM x >>= g := by
  have erased : (liftM x : m α) = (·.val) <$> (liftM (traced x) : m _) := by
    rw [← liftM_map]
    cases x <;> rfl
  rw [erased]
  exact map_val_bind fun ⟨a, found⟩ => same a found

theorem map_val_traced_last {x : Except ParseError α} {q : α → Prop}
    {f : { a // x = .ok a } → m { a // q a }}
    (same : ∀ a found, (·.val) <$> f ⟨a, found⟩ = pure a) :
    (·.val) <$> (liftM (traced x) >>= f) = (liftM x : m α) := by
  rw [map_val_traced same, bind_pure]

theorem map_failWith {fault : ParseError} :
    (·.val) <$> (failWith fault : m { a // p a }) = (failWith fault : m α) :=
  (liftM_map _ _).symm

variable {σ : Type} [TokenSource σ] [TokenMonad σ m]

theorem map_val_expect {what : Expectation} {source : σ}
    {f : { ahead : Lookahead σ // expect what source = .ok ahead } → m { b // q b }}
    {g : Lookahead σ → m β} (same : ∀ ahead found, (·.val) <$> f ⟨ahead, found⟩ = g ahead) :
    (·.val) <$> (expectTraced what source >>= f) = expectIn m what source >>= g := by
  simp only [expectTraced, expectIn, bind_assoc, pure_bind]
  exact map_val_traced fun ahead found => map_val_note (same ahead found)

end

section

variable {σ : Type} [TokenSource σ] {m : Type → Type} [Monad m] [LawfulMonad m]
  [MonadLiftT (Except ParseError) m] (options : Options) (owner : Owner) (least : Nat) (source : σ)
  (parsed : Parsed σ)

theorem exprIn_eq [ReadingMonad σ m] [LawfulReadingMonad σ m] :
    exprIn m options owner least source = nested options source (do
      let first ← operandIn m options owner source
      let chain ← infixTailIn m options owner least first
      conditionalTailIn m options owner least chain) := by
  rw [exprIn, exprBelow, LawfulReadingMonad.map_nested]
  exact congrArg _ (map_val_bind fun first => map_val_bind fun chain =>
    map_val_last fun _ => map_pure ..)

variable [LawfulMonadLiftT (Except ParseError) m]

section

variable [TokenMonad σ m]

theorem closeParenthesisIn_eq : closeParenthesisIn m options parsed = (do
    let ahead ← lookahead parsed.source
    if ahead.token.isSymbol ")" then
      take ahead
      return { parsed with source := ahead.rest }
    else if ahead.token.isEnd && options.allowUnclosedParens then
      return { parsed with source := ahead.held }
    else failWith (.unclosedParenthesis ahead.token)) := by
  refine map_val_traced fun ahead found => ?_
  dsimp only
  split
  · exact map_val_note (map_pure ..)
  · split
    · exact map_pure ..
    · exact map_failWith

theorem propertyIn_eq (kind : String) : propertyIn m kind source = (do
    let opening ← expectIn m .openReference source
    let name ← expectIn m .referenceName opening.rest
    let dot ← expectIn m .referenceDot name.rest
    let qualifier ← expectIn m .referenceQualifier dot.rest
    let closing ← expectIn m .closeReference qualifier.rest
    return leaf (.property ⟨kind, name.token.text, qualifier.token.text⟩) closing.rest) :=
  map_val_expect fun _ _ => map_val_expect fun _ _ => map_val_expect fun _ _ =>
    map_val_expect fun _ _ => map_val_expect fun _ _ => map_pure ..

end

variable [ReadingMonad σ m]

theorem infixTailIn_eq : infixTailIn m options owner least parsed = (do
    let ahead ← lookahead parsed.source
    match takesInfix least ahead.token with
    | none => return { parsed with source := ahead.held }
    | some op =>
      take ahead
      let right ← exprIn m options owner op.operandLevel ahead.rest
      let grown ← node options (.binary (.between op) parsed.formula right.formula)
        (max parsed.height right.height) right.source
      turn parsed.source grown.source
      infixTailIn m options owner least grown) := by
  rw [infixTailIn, infixTailBelow]
  refine map_val_traced fun ahead found => ?_
  dsimp only
  split
  · rename_i none
    rw [none]
    exact map_pure ..
  · rename_i op taken
    simp only [taken]
    exact map_val_note <| map_val_bind fun right => map_val_traced fun grown made =>
      map_val_note <| map_val_last fun _ => map_pure ..

theorem conditionalTailIn_eq : conditionalTailIn m options owner least parsed = (do
    let ahead ← lookahead parsed.source
    if takesConditional least ahead.token then
      take ahead
      let first ← exprIn m options owner Conditional.operandLevel ahead.rest
      let marker ← expectIn m .conditionalMarker first.source
      let second ← exprIn m options owner Conditional.operandLevel marker.rest
      let grown ← node options (.conditional parsed.formula first.formula second.formula)
        (max (max parsed.height first.height) second.height) second.source
      turn parsed.source grown.source
      conditionalTailIn m options owner least grown
    else return { parsed with source := ahead.held }) := by
  rw [conditionalTailIn, conditionalTailBelow]
  refine map_val_traced fun ahead found => ?_
  dsimp only
  split
  · exact map_val_note <| map_val_bind fun first => map_val_expect fun marker marked =>
      map_val_bind fun second => map_val_traced fun grown made =>
      map_val_note <| map_val_last fun _ => map_pure ..
  · exact map_pure ..

theorem operandIn_eq : operandIn m options owner source = (do
    let ahead ← lookahead source
    match ahead.token with
    | .symbol text =>
      if text = "(" then
        take ahead
        let inner ← exprIn m options owner 0 ahead.rest
        closeParenthesisIn m options inner
      else
        match PrefixOp.ofSymbol? text with
        | some op =>
          take ahead
          let operand ← exprIn m options owner op.precedence ahead.rest
          node options (.unary op operand.formula) operand.height operand.source
        | none => failWith (.unexpectedToken ahead.token)
    | .number _ | .name _ =>
      take ahead
      valueIn m options owner ahead.token ahead.rest
    | _ => failWith (.unexpectedToken ahead.token)) := by
  rw [operandIn, operandBelow]
  refine map_val_traced fun ahead found => ?_
  obtain ⟨token, held, rest⟩ := ahead
  cases token with
  | symbol text =>
    dsimp only
    split
    · exact map_val_note <| map_val_bind fun inner => map_val_last fun _ => map_pure ..
    · split
      · exact map_val_note <| map_val_bind fun operand => map_val_traced_last fun _ _ => map_pure ..
      · exact map_failWith
  | number digits => exact map_val_note <| map_val_last fun _ => map_pure ..
  | name name => exact map_val_note <| map_val_last fun _ => map_pure ..
  | string | endOfInput => exact map_failWith

theorem valueIn_eq (token : Token) : valueIn m options owner token source =
    match token with
    | .number digits => number digits source
    | .name name =>
      if isPropertyKind name then propertyIn m name source
      else
        match Builtin.ofSymbol? name with
        | some fn => do
          let opening ← expectIn m .openCall source
          let first ← exprIn m options owner 0 opening.rest
          let comma ← expectIn m .callComma first.source
          let second ← exprIn m options owner 0 comma.rest
          let closing ← expectIn m .closeCall second.source
          node options (.binary (.call fn) first.formula second.formula)
            (max first.height second.height) closing.rest
        | none => bareName owner name source
    | token => failWith (.notAValue token) := by
  rw [valueIn, valueBelow.eq_def]
  cases token with
  | number digits => exact map_val_traced_last fun _ _ => map_pure ..
  | name name =>
    dsimp only
    split
    · exact map_val_last fun _ => map_pure ..
    · split
      · exact map_val_expect fun opening _ => map_val_bind fun first =>
          map_val_expect fun comma _ => map_val_bind fun second =>
          map_val_expect fun closing _ => map_val_traced_last fun _ _ => map_pure ..
      · exact map_val_traced_last fun _ _ => map_pure ..
  | symbol | string | endOfInput => exact map_failWith

end

/-! ### The reader that is told its depth -/

section

variable {σ : Type} [TokenSource σ] (options : Options) (owner : Owner)

def closeParenthesis (inner : Parsed σ) : Except ParseError (Parsed σ) :=
  closeParenthesisIn (Except ParseError) options inner

def property (kind : String) (source : σ) : Except ParseError (Parsed σ) :=
  propertyIn (Except ParseError) kind source

/-- Reads a formula inside so many others as the depth says. -/
def expr (depth least : Nat) (source : σ) : Except ParseError (Parsed σ) :=
  exprIn Told options owner least source depth

def infixTail (depth least : Nat) (chain : Parsed σ) : Except ParseError (Parsed σ) :=
  infixTailIn Told options owner least chain depth

def conditionalTail (depth least : Nat) (condition : Parsed σ) : Except ParseError (Parsed σ) :=
  conditionalTailIn Told options owner least condition depth

def operand (depth : Nat) (source : σ) : Except ParseError (Parsed σ) :=
  operandIn Told options owner source depth

def value (depth : Nat) (token : Token) (source : σ) : Except ParseError (Parsed σ) :=
  valueIn Told options owner token source depth

theorem expectIn_except (what : Expectation) (source : σ) :
    expectIn (Except ParseError) what source = expect what source := bind_pure _

theorem expectIn_told (what : Expectation) (source : σ) :
    expectIn Told what source = liftM (expect what source) := bind_pure (m := Told) _

variable (depth least : Nat) (source : σ) (parsed : Parsed σ)

theorem closeParenthesis_eq : closeParenthesis options parsed = (do
    let ahead ← lookahead parsed.source
    if ahead.token.isSymbol ")" then .ok { parsed with source := ahead.rest }
    else if ahead.token.isEnd && options.allowUnclosedParens then
      .ok { parsed with source := ahead.held }
    else .error (.unclosedParenthesis ahead.token)) := by
  rw [closeParenthesis, closeParenthesisIn_eq]
  rfl

theorem property_eq (kind : String) : property kind source = (do
    let opening ← expect .openReference source
    let name ← expect .referenceName opening.rest
    let dot ← expect .referenceDot name.rest
    let qualifier ← expect .referenceQualifier dot.rest
    let closing ← expect .closeReference qualifier.rest
    .ok (leaf (.property ⟨kind, name.token.text, qualifier.token.text⟩) closing.rest)) := by
  rw [property, propertyIn_eq]
  simp only [expectIn_except]
  rfl

theorem closeParenthesisIn_told :
    closeParenthesisIn Told options parsed = liftM (closeParenthesis options parsed) := by
  funext depth
  rw [closeParenthesisIn_eq, closeParenthesis_eq]
  refine bind_congr (m := Except ParseError) fun ahead => ?_
  dsimp only
  repeat' split
  all_goals rfl

theorem propertyIn_told (kind : String) :
    propertyIn Told kind source = liftM (property kind source) := by
  rw [property_eq, propertyIn_eq]
  simp only [expectIn_told]
  rfl

theorem expr_eq : expr options owner depth least source =
    if options.maxDepth ≤ depth then .error (.tooDeep options.maxDepth)
    else (do
      let first ← operand options owner (depth + 1) source
      let chain ← infixTail options owner (depth + 1) least first
      conditionalTail options owner (depth + 1) least chain) := by
  rw [expr, exprIn_eq]
  rfl

theorem infixTail_eq : infixTail options owner depth least parsed = (do
    let ahead ← lookahead parsed.source
    match takesInfix least ahead.token with
    | none => .ok { parsed with source := ahead.held }
    | some op =>
      let right ← expr options owner depth op.operandLevel ahead.rest
      let grown ← node options (.binary (.between op) parsed.formula right.formula)
        (max parsed.height right.height) right.source
      infixTail options owner depth least grown) := by
  rw [infixTail, infixTailIn_eq]
  refine bind_congr (m := Except ParseError) fun ahead => ?_
  dsimp only
  cases takesInfix least ahead.token <;> rfl

theorem conditionalTail_eq : conditionalTail options owner depth least parsed = (do
    let ahead ← lookahead parsed.source
    if takesConditional least ahead.token then
      let first ← expr options owner depth Conditional.operandLevel ahead.rest
      let marker ← expect .conditionalMarker first.source
      let second ← expr options owner depth Conditional.operandLevel marker.rest
      let grown ← node options (.conditional parsed.formula first.formula second.formula)
        (max (max parsed.height first.height) second.height) second.source
      conditionalTail options owner depth least grown
    else .ok { parsed with source := ahead.held }) := by
  rw [conditionalTail, conditionalTailIn_eq]
  simp only [expectIn_told]
  refine bind_congr (m := Except ParseError) fun ahead => ?_
  dsimp only
  cases takesConditional least ahead.token <;> rfl

theorem operand_eq : operand options owner depth source = (do
    let ahead ← lookahead source
    match ahead.token with
    | .symbol text =>
      if text = "(" then
        let inner ← expr options owner depth 0 ahead.rest
        closeParenthesis options inner
      else
        match PrefixOp.ofSymbol? text with
        | some op =>
          let operand ← expr options owner depth op.precedence ahead.rest
          node options (.unary op operand.formula) operand.height operand.source
        | none => .error (.unexpectedToken ahead.token)
    | .number _ | .name _ => value options owner depth ahead.token ahead.rest
    | _ => .error (.unexpectedToken ahead.token)) := by
  rw [operand, operandIn_eq]
  simp only [closeParenthesisIn_told]
  refine bind_congr (m := Except ParseError) fun ahead => ?_
  obtain ⟨token, held, rest⟩ := ahead
  cases token with
  | symbol text =>
    dsimp only
    by_cases opening : text = "("
    · rw [if_pos opening, if_pos opening]
      rfl
    · rw [if_neg opening, if_neg opening]
      cases PrefixOp.ofSymbol? text <;> rfl
  | number | name | string | endOfInput => rfl

theorem value_eq (token : Token) : value options owner depth token source =
    match token with
    | .number digits => number digits source
    | .name name =>
      if isPropertyKind name then property name source
      else
        match Builtin.ofSymbol? name with
        | some fn => do
          let opening ← expect .openCall source
          let first ← expr options owner depth 0 opening.rest
          let comma ← expect .callComma first.source
          let second ← expr options owner depth 0 comma.rest
          let closing ← expect .closeCall second.source
          node options (.binary (.call fn) first.formula second.formula)
            (max first.height second.height) closing.rest
        | none => bareName owner name source
    | token => .error (.notAValue token) := by
  rw [value, valueIn_eq]
  cases token with
  | name name =>
    dsimp only
    split
    · rw [propertyIn_told]
      rfl
    · simp only [expectIn_told]
      cases Builtin.ofSymbol? name <;> rfl
  | number | symbol | string | endOfInput => rfl

end

/-! ### How many tokens the readers leave -/

section

variable {σ : Type} [TokenSource σ] {options : Options} {owner : Owner} {depth least : Nat}
  {source : σ} {parsed result : Parsed σ}

theorem prop_of_map_val {ε α : Type} {p : α → Prop} {x : Except ε { a // p a }} {a : α}
    (h : x.map (·.val) = .ok a) : p a := by
  cases x with
  | error => cases h
  | ok a => cases h; exact a.property

theorem left_of_expr (h : expr options owner depth least source = .ok result) :
    left result.source < left source :=
  prop_of_map_val (p := fun result : Parsed σ => left result.source < left source) h

theorem left_of_operand (h : operand options owner depth source = .ok result) :
    left result.source < left source :=
  prop_of_map_val (p := fun result : Parsed σ => left result.source < left source) h

theorem left_of_infixTail (h : infixTail options owner depth least parsed = .ok result) :
    left result.source ≤ left parsed.source :=
  Nat.le_of_lt_succ
    (prop_of_map_val (p := fun result : Parsed σ => left result.source < left parsed.source + 1) h)

end

end TableFormula
