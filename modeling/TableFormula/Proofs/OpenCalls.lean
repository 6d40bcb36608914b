import TableFormula.Proofs.WellGroupedReading

/-! Which parentheses are open behind some tokens, and which of them are those of a call. -/

namespace TableFormula

structure Nesting where
  /-- Whether each of them, the innermost first, stands behind a name. -/
  behindName : List Bool := []
  named : Bool := false

namespace Nesting

def next (nesting : Nesting) : Token → Nesting
  | .symbol "(" => { behindName := nesting.named :: nesting.behindName }
  | .symbol ")" => { behindName := nesting.behindName.tail }
  | .name _ => { nesting with named := true }
  | _ => { nesting with named := false }

def after (nesting : Nesting) (tokens : List Token) : Nesting := tokens.foldl next nesting

theorem after_append (nesting : Nesting) (first second : List Token) :
    nesting.after (first ++ second) = (nesting.after first).after second := List.foldl_append

theorem after_cons (nesting : Nesting) (token : Token) (tokens : List Token) :
    nesting.after (token :: tokens) = (nesting.next token).after tokens := rfl

theorem next_infix (nesting : Nesting) (op : InfixOp) :
    nesting.next (.symbol op.symbol) = { behindName := nesting.behindName } := by
  cases op <;> rfl

theorem next_prefix (nesting : Nesting) (op : PrefixOp) :
    nesting.next (.symbol op.symbol) = { behindName := nesting.behindName } := by
  cases op <;> rfl

theorem next_comma (nesting : Nesting) :
    nesting.next (.symbol ",") = { behindName := nesting.behindName } := rfl

theorem next_closing (nesting : Nesting) :
    nesting.next (.symbol ")") = { behindName := nesting.behindName.tail } := rfl

theorem next_conditional (nesting : Nesting) :
    nesting.next (.symbol Conditional.symbol) = { behindName := nesting.behindName } := rfl

theorem next_marker (nesting : Nesting) :
    nesting.next (.symbol Conditional.marker) = { behindName := nesting.behindName } := rfl

end Nesting

/-- Whether tokens end inside the parentheses of a call or a property reference. -/
def leavesCallOpen (tokens : List Token) : Bool :=
  (({} : Nesting).after tokens).behindName.contains true

namespace Phrase

/-- Whether the parentheses that are open behind the tokens of a phrase, but for some at its end, are
those of groups and of what is around the phrase. -/
def LeavesGroups (phrase : Phrase) (missing : Nat) : Prop :=
  ∃ front, phrase.tokens = front ++ closings missing ∧ ∀ parens : List Bool,
    (({ behindName := parens } : Nesting).after front).behindName =
      List.replicate missing false ++ parens

theorem LeavesGroups.nothing {phrase : Phrase} (h : phrase.LeavesGroups 0) (parens : List Bool) :
    (({ behindName := parens } : Nesting).after phrase.tokens).behindName = parens := by
  obtain ⟨front, ends, nested⟩ := h
  rw [ends]
  simpa [closings] using nested parens

theorem leavesGroups (phrase : Phrase) : ∀ missing ≤ phrase.openGroups, phrase.LeavesGroups missing := by
  induction phrase with
  | number digits =>
    intro missing few
    obtain rfl := Nat.le_zero.mp few
    exact ⟨[.number digits], rfl, fun parens => rfl⟩
  | bare name =>
    intro missing few
    obtain rfl := Nat.le_zero.mp few
    exact ⟨[.name name], rfl, fun parens => rfl⟩
  | reference kind name qualifier =>
    intro missing few
    obtain rfl := Nat.le_zero.mp few
    exact ⟨_, (List.append_nil _).symm, fun parens => rfl⟩
  | call fn first second ihFirst ihSecond =>
    intro missing few
    obtain rfl := Nat.le_zero.mp few
    refine ⟨_, (List.append_nil _).symm, fun parens => ?_⟩
    have opened : ({ behindName := parens } : Nesting).after [.name fn.symbol, .symbol "("] =
        { behindName := true :: parens } := rfl
    have firstNested := (ihFirst 0 (Nat.zero_le _)).nothing (true :: parens)
    have secondNested := (ihSecond 0 (Nat.zero_le _)).nothing (true :: parens)
    show (({ behindName := true :: parens } : Nesting).after (first.tokens ++ _)).behindName = parens
    rw [Nesting.after_append, Nesting.after_cons, Nesting.next_comma, firstNested,
      Nesting.after_append, Nesting.after_cons, Nesting.next_closing, secondNested]
    rfl
  | group inner ih =>
    intro missing few
    cases missing with
    | zero =>
      refine ⟨_, (List.append_nil _).symm, fun parens => ?_⟩
      have nested := (ih 0 (Nat.zero_le _)).nothing (false :: parens)
      show (({ behindName := false :: parens } : Nesting).after (inner.tokens ++ _)).behindName = parens
      rw [Nesting.after_append, Nesting.after_cons, Nesting.next_closing, nested]
      rfl
    | succ missing =>
      obtain ⟨front, ends, nested⟩ := ih missing (Nat.le_of_succ_le_succ few)
      refine ⟨.symbol "(" :: front, ?_, fun parens => ?_⟩
      · rw [tokens, ends, List.append_assoc, closings, closings, List.replicate_succ']
        rfl
      · rw [List.replicate_succ', List.append_assoc]
        exact nested (false :: parens)
  | prefixed op operand ih =>
    intro missing few
    obtain ⟨front, ends, nested⟩ := ih missing few
    refine ⟨.symbol op.symbol :: front, congrArg (_ :: ·) ends, fun parens => ?_⟩
    rw [Nesting.after_cons, Nesting.next_prefix]
    exact nested parens
  | between op left right ihLeft ihRight =>
    intro missing few
    obtain ⟨front, ends, nested⟩ := ihRight missing few
    refine ⟨left.tokens ++ .symbol op.symbol :: front, ?_, fun parens => ?_⟩
    · rw [tokens, ends, List.append_assoc, List.cons_append]
    · rw [Nesting.after_append, Nesting.after_cons, Nesting.next_infix,
        (ihLeft 0 (Nat.zero_le _)).nothing]
      exact nested parens
  | conditional condition first second ihCondition ihFirst ihSecond =>
    intro missing few
    obtain ⟨front, ends, nested⟩ := ihSecond missing few
    refine ⟨condition.tokens ++ .symbol Conditional.symbol ::
      (first.tokens ++ .symbol Conditional.marker :: front), ?_, fun parens => ?_⟩
    · rw [tokens, ends, List.append_assoc, List.cons_append, List.append_assoc, List.cons_append]
    · rw [Nesting.after_append, Nesting.after_cons, Nesting.next_conditional,
        (ihCondition 0 (Nat.zero_le _)).nothing, Nesting.after_append, Nesting.after_cons,
        Nesting.next_marker, (ihFirst 0 (Nat.zero_le _)).nothing]
      exact nested parens

end Phrase

theorem Writes.leavesCallOpen_eq_false {lenient : Bool} {phrase : Phrase} {tokens rest : List Token}
    (h : Writes lenient phrase tokens rest) :
    ∃ read missing, tokens = read ++ rest ∧ phrase.tokens = read ++ closings missing ∧
      (missing ≠ 0 → rest = []) ∧ leavesCallOpen read = false := by
  obtain ⟨missing, few, written, ended⟩ := h
  obtain ⟨front, ends, nested⟩ := phrase.leavesGroups missing few
  refine ⟨front, missing, ?_, ends, fun some => (ended some).2, ?_⟩
  · cases missing with
    | zero =>
      rw [ends] at written
      simpa [closings] using written
    | succ missing =>
      obtain rfl := (ended (Nat.succ_ne_zero _)).2
      rw [ends, List.append_nil] at written
      rw [List.append_cancel_right written, List.append_nil]
  · rw [leavesCallOpen, nested []]
    simp

end TableFormula
