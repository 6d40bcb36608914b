import TableFormula.Grammar.Reader

/-!
The readers of a formula call each other. A property is proved of each of them at once: a call may
assume the property of every call that its source leads to, because that source has fewer tokens left,
or the call is that of the operand with which a formula begins.
-/

namespace TableFormula

open TokenSource

theorem ok_bind {ε α β : Type} (a : α) (f : α → Except ε β) : Except.ok a >>= f = f a := rfl

theorem ok_of_bind {ε α β : Type} {x : Except ε α} {f : α → Except ε β} {b : β}
    (h : x >>= f = .ok b) : ∃ a, x = .ok a ∧ f a = .ok b := by
  cases x with
  | error => cases h
  | ok a => exact ⟨a, rfl, h⟩

variable {σ : Type} [TokenSource σ]

section

variable {exprOf : Nat → Nat → σ → Prop} {infixTailOf conditionalTailOf : Nat → Nat → Parsed σ → Prop}
  {operandOf : Nat → σ → Prop} {valueOf : Nat → Token → σ → Prop}

theorem readers_induction
    (expr : ∀ depth least source, (∀ depth, operandOf depth source) →
      (∀ depth least chain, left chain.source < left source →
        infixTailOf depth least chain ∧ conditionalTailOf depth least chain) →
      exprOf depth least source)
    (infixTail : ∀ depth least chain,
      (∀ depth least source, left source < left chain.source → exprOf depth least source) →
      (∀ grown, left grown.source < left chain.source → infixTailOf depth least grown) →
      infixTailOf depth least chain)
    (conditionalTail : ∀ depth least condition,
      (∀ depth least source, left source < left condition.source → exprOf depth least source) →
      (∀ grown, left grown.source < left condition.source →
        conditionalTailOf depth least grown) →
      conditionalTailOf depth least condition)
    (operand : ∀ depth source,
      (∀ depth least later, left later < left source →
        exprOf depth least later ∧ ∀ token, valueOf depth token later) →
      operandOf depth source)
    (value : ∀ depth token source,
      (∀ depth least later, left later < left source → exprOf depth least later) →
      valueOf depth token source) :
    (∀ depth least source, exprOf depth least source) ∧
      (∀ depth least chain, infixTailOf depth least chain) ∧
      (∀ depth least condition, conditionalTailOf depth least condition) ∧
      (∀ depth source, operandOf depth source) ∧
      ∀ depth token source, valueOf depth token source := by
  -- The induction is on the number of tokens left; among calls with the same number, an operand
  -- comes before the formula that begins with it.
  have all : ∀ n,
      (∀ depth least source, left source = n → exprOf depth least source) ∧
      (∀ depth least chain, left chain.source = n → infixTailOf depth least chain) ∧
      (∀ depth least condition, left condition.source = n →
        conditionalTailOf depth least condition) ∧
      (∀ depth source, left source = n → operandOf depth source) ∧
      ∀ depth token source, left source = n → valueOf depth token source := by
    intro n
    induction n using Nat.strongRecOn with
    | _ n ih =>
      have exprBelow : ∀ depth least source, left source < n → exprOf depth least source :=
        fun depth least source fewer => (ih _ fewer).1 depth least source rfl
      have operands : ∀ depth source, left source = n → operandOf depth source := by
        rintro depth source rfl
        exact operand depth source fun depth least later fewer =>
          ⟨exprBelow depth least later fewer, fun token => (ih _ fewer).2.2.2.2 depth token later rfl⟩
      refine ⟨?_, ?_, ?_, operands, ?_⟩
      · rintro depth least source rfl
        exact expr depth least source (fun depth => operands depth source rfl)
          fun depth least chain fewer =>
            ⟨(ih _ fewer).2.1 depth least chain rfl, (ih _ fewer).2.2.1 depth least chain rfl⟩
      · rintro depth least chain rfl
        exact infixTail depth least chain exprBelow fun grown fewer =>
          (ih _ fewer).2.1 depth least grown rfl
      · rintro depth least condition rfl
        exact conditionalTail depth least condition exprBelow fun grown fewer =>
          (ih _ fewer).2.2.1 depth least grown rfl
      · rintro depth token source rfl
        exact value depth token source exprBelow
  exact ⟨fun depth least source => (all _).1 depth least source rfl,
    fun depth least chain => (all _).2.1 depth least chain rfl,
    fun depth least condition => (all _).2.2.1 depth least condition rfl,
    fun depth source => (all _).2.2.2.1 depth source rfl,
    fun depth token source => (all _).2.2.2.2 depth token source rfl⟩

end

end TableFormula
