import TableFormula.Parser

namespace TableFormula

open TokenSource

section

variable {σ : Type} [TokenSource σ]

/-- The tokens that were not taken yet, up to the end or the first fault. -/
def unread (source : σ) : List Token :=
  match _ : look source with
  | .error _ => []
  | .ok ahead =>
    if _ : ahead.token = .endOfInput then []
    else ahead.token :: unread ahead.rest
termination_by left source
decreasing_by exact left_rest ‹_› ‹_›

theorem unread_of_look {source : σ} {ahead : Lookahead σ} (looked : look source = .ok ahead) :
    unread source =
      if ahead.token = .endOfInput then [] else ahead.token :: unread ahead.rest := by
  rw [unread]
  split
  · rename_i failed
    cases failed.symm.trans looked
  · rename_i same
    cases same.symm.trans looked
    rfl

theorem unread_of_fault {source : σ} {fault : LexFault} (failed : look source = .error fault) :
    unread source = [] := by
  rw [unread]
  split
  · rfl
  · rename_i same
    cases same.symm.trans failed

theorem unread_held {source : σ} {ahead : Lookahead σ} (looked : look source = .ok ahead) :
    unread ahead.held = unread source := by
  rw [unread_of_look looked, unread_of_look (look_held looked)]

theorem unread_rest {source : σ} {ahead : Lookahead σ} (looked : look source = .ok ahead)
    (proper : ahead.token ≠ .endOfInput) : unread source = ahead.token :: unread ahead.rest := by
  rw [unread_of_look looked, if_neg proper]

end

variable {σ : Type}

inductive ReadStep (σ : Type) where
  | take (token : Token)
  /-- A formula is begun inside as many others as the depth says. -/
  | call (depth : Nat) (source : σ)
  /-- A turn of a loop went from the one source to the other. -/
  | turn (before after : σ)

namespace ReadStep

def token? : ReadStep σ → Option Token
  | take token => some token
  | _ => none

def isCall : ReadStep σ → Bool
  | call _ _ => true
  | _ => false

end ReadStep

/-- A result, and the steps on the way to it. -/
structure Noted (σ α : Type) where
  steps : List (ReadStep σ)
  result : α

instance : Monad (Noted σ) where
  pure result := { steps := [], result }
  bind noted f :=
    { steps := noted.steps ++ (f noted.result).steps, result := (f noted.result).result }

instance : LawfulMonad (Noted σ) := LawfulMonad.mk' _
  (fun noted => congrArg (Noted.mk · noted.result) (List.append_nil noted.steps))
  (fun _ _ => rfl)
  (fun noted f g => congrArg (Noted.mk · _) (List.append_assoc noted.steps _ _))

/-- A reading that is told its depth and has its steps noted, up to a fault too. -/
abbrev Recorded (σ : Type) := ReaderT Nat (ExceptT ParseError (Noted σ))

namespace Recorded

variable {α β : Type}

def steps (recorded : Recorded σ α) (depth : Nat) : List (ReadStep σ) :=
  (recorded.run depth).run.steps

def result (recorded : Recorded σ α) (depth : Nat) : Except ParseError α :=
  (recorded.run depth).run.result

def note (step : ReadStep σ) : Recorded σ Unit := fun _ => Noted.mk [step] (.ok ())

theorem result_bind (recorded : Recorded σ α) (f : α → Recorded σ β) (depth : Nat) :
    (recorded >>= f).result depth = recorded.result depth >>= fun a => (f a).result depth := by
  show Noted.result (ExceptT.bindCont _ (recorded.result depth)) = _
  cases recorded.result depth <;> rfl

theorem steps_bind (recorded : Recorded σ α) (f : α → Recorded σ β) (depth : Nat) :
    (recorded >>= f).steps depth = recorded.steps depth ++
      match recorded.result depth with
      | .ok a => (f a).steps depth
      | .error _ => [] := by
  show recorded.steps depth ++ Noted.steps (ExceptT.bindCont _ (recorded.result depth)) = _
  cases recorded.result depth <;> rfl

end Recorded

instance : ReadingMonad σ (Recorded σ) where
  take ahead := .note (.take ahead.token)
  turn before after := .note (.turn before after)
  nested options source inside depth :=
    if options.maxDepth ≤ depth then
      Noted.mk [.call depth source] (.error (.tooDeep options.maxDepth))
    else Noted.mk (.call depth source :: inside.steps (depth + 1)) (inside.result (depth + 1))

instance : LawfulReadingMonad σ (Recorded σ) where
  map_nested f options source inside := by
    funext depth
    show ExceptT.map f (if options.maxDepth ≤ depth then _ else _) = if _ then _ else _
    split <;> rfl

namespace Recorded

variable {α : Type} (options : Options) (source : σ) (inside : Recorded σ α) (depth : Nat)

theorem result_nested : (ReadingMonad.nested options source inside : Recorded σ α).result depth =
    if options.maxDepth ≤ depth then .error (.tooDeep options.maxDepth)
    else inside.result (depth + 1) := by
  show Noted.result (if options.maxDepth ≤ depth then _ else _) = _
  split <;> rfl

theorem steps_nested : (ReadingMonad.nested options source inside : Recorded σ α).steps depth =
    .call depth source :: if options.maxDepth ≤ depth then [] else inside.steps (depth + 1) := by
  show Noted.steps (if options.maxDepth ≤ depth then _ else _) = _
  split <;> rfl

end Recorded

/-- The steps of reading a formula inside so many others as the depth says. -/
def exprSteps [TokenSource σ] (options : Options) (owner : Owner) (depth least : Nat) (source : σ) :
    List (ReadStep σ) :=
  (exprIn (Recorded σ) options owner least source).steps depth

/-- The steps of reading the formula in a text. -/
def Parser.steps (parser : Parser) (owner : Owner) (text : String) : List (ReadStep Lexer) :=
  match Text.trim text.toList with
  | [] => []
  | trimmed => exprSteps parser.options owner 0 0 ({ rest := trimmed } : Lexer)

end TableFormula
