import TableFormula.Proofs.OpenCalls

/-!
Reading takes as much as it can. Behind what it takes it sees one token and no more, so that any other
tokens may stand there that begin with the same one.
-/

namespace TableFormula

theorem nextToken_congr {tokens other : List Token} (same : other.head? = tokens.head?) :
    nextToken other = nextToken tokens := by
  rw [nextToken, nextToken, List.headD_eq_head?_getD, List.headD_eq_head?_getD, same]

theorem head?_append_congr {tokens other : List Token} (read : List Token)
    (same : other.head? = tokens.head?) : (read ++ other).head? = (read ++ tokens).head? := by
  rw [List.head?_append, List.head?_append, same]

theorem Reads.reread {lenient : Bool} {place : Place} {tokens rest : List Token} {phrase : Phrase}
    (h : Reads lenient place tokens phrase rest) :
    ∃ read, tokens = read ++ rest ∧ ∀ other : List Token, other.head? = rest.head? →
      Reads lenient place (read ++ other) phrase other := by
  -- The tokens behind a part are those that the parts after it take, and then the rest: they begin
  -- alike whatever the rest is, as long as it begins alike.
  induction h with
  | formula _ _ _ ihFirst ihChain ihWhole =>
    obtain ⟨readFirst, rfl, first⟩ := ihFirst
    obtain ⟨readChain, rfl, chain⟩ := ihChain
    obtain ⟨readWhole, rfl, whole⟩ := ihWhole
    refine ⟨readFirst ++ (readChain ++ readWhole), by simp, fun other same => ?_⟩
    have sameWhole := head?_append_congr readWhole same
    rw [List.append_assoc, List.append_assoc]
    exact .formula (first _ (head?_append_congr readChain sameWhole)) (chain _ sameWhole)
      (whole other same)
  | infixEnd stops =>
    exact ⟨[], rfl, fun other same => .infixEnd (by rwa [List.nil_append, nextToken_congr same])⟩
  | @infixMore _ _ _ _ token _ _ _ _ taken _ _ ihRight ihWhole =>
    obtain ⟨readRight, rfl, right⟩ := ihRight
    obtain ⟨readWhole, rfl, whole⟩ := ihWhole
    refine ⟨token :: (readRight ++ readWhole), by simp, fun other same => ?_⟩
    rw [List.cons_append, List.append_assoc]
    exact .infixMore taken (right _ (head?_append_congr readWhole same)) (whole other same)
  | conditionalEnd stops =>
    exact ⟨[], rfl, fun other same =>
      .conditionalEnd (by rwa [List.nil_append, nextToken_congr same])⟩
  | @conditionalMore _ _ _ _ _ token _ _ _ _ taken _ _ _ ihFirst ihSecond ihWhole =>
    obtain ⟨readFirst, rfl, first⟩ := ihFirst
    obtain ⟨readSecond, rfl, second⟩ := ihSecond
    obtain ⟨readWhole, rfl, whole⟩ := ihWhole
    refine ⟨token :: (readFirst ++ .symbol Conditional.marker :: (readSecond ++ readWhole)), by simp,
      fun other same => ?_⟩
    rw [List.cons_append, List.append_assoc, List.cons_append, List.append_assoc]
    exact .conditionalMore taken (first _ rfl) (second _ (head?_append_congr readWhole same))
      (whole other same)
  | @number digits _ word => exact ⟨[.number digits], rfl, fun _ _ => .number word⟩
  | @bare name _ free noCall =>
    exact ⟨[.name name], rfl, fun other same => .bare free (nextToken_congr same ▸ noCall)⟩
  | @reference kind name qualifier _ found =>
    exact ⟨[.name kind, .symbol "(", .string name, .symbol ".", .name qualifier, .symbol ")"], rfl,
      fun _ _ => .reference found⟩
  | @call name _ _ _ _ _ _ called _ _ ihFirst ihSecond =>
    obtain ⟨readFirst, rfl, first⟩ := ihFirst
    obtain ⟨readSecond, rfl, second⟩ := ihSecond
    refine ⟨.name name :: .symbol "(" :: (readFirst ++ .symbol "," ::
      (readSecond ++ [.symbol ")"])), by simp, fun other _ => ?_⟩
    have again := Reads.call called (first (.symbol "," :: (readSecond ++ .symbol ")" :: other)) rfl)
      (second (.symbol ")" :: other) rfl)
    simpa using again
  | @prefixed text _ _ _ _ found _ ih =>
    obtain ⟨read, rfl, operand⟩ := ih
    exact ⟨.symbol text :: read, rfl, fun other same => .prefixed found (operand other same)⟩
  | group _ ih =>
    obtain ⟨read, rfl, inner⟩ := ih
    refine ⟨.symbol "(" :: (read ++ [.symbol ")"]), by simp, fun other _ => ?_⟩
    simpa using Reads.group (inner (.symbol ")" :: other) rfl)
  | @unclosed _ tokens tolerated inner _ =>
    refine ⟨.symbol "(" :: tokens, by simp, fun other same => ?_⟩
    obtain rfl := List.head?_eq_none_iff.mp same
    rw [List.append_nil]
    exact .unclosed tolerated inner

namespace Writes

variable {lenient : Bool} {a b : Phrase} {tokens rest : List Token}

theorem suffix (h : Writes lenient a tokens rest) : rest <:+ tokens := by
  obtain ⟨missing, few, written, ended⟩ := h
  cases missing with
  | zero =>
    rw [closings, List.replicate_zero, List.append_nil] at written
    exact ⟨a.tokens, written.symm⟩
  | succ =>
    rw [(ended (Nat.succ_ne_zero _)).2]
    exact List.nil_suffix

/-- How many closing parentheses are missing can be told from the tokens. -/
theorem tokens_eq (writesA : Writes lenient a tokens rest) (writesB : Writes lenient b tokens rest) :
    a.tokens = b.tokens := by
  have front : ∀ {phrase : Phrase}, Writes lenient phrase tokens rest → ∃ read missing,
      tokens = read ++ rest ∧ phrase.tokens = read ++ closings missing ∧
        (({} : Nesting).after read).behindName = List.replicate missing false := by
    rintro phrase ⟨missing, few, written, ended⟩
    obtain ⟨read, ends, nested⟩ := phrase.leavesGroups missing few
    refine ⟨read, missing, ?_, ends, by rw [nested [], List.append_nil]⟩
    rw [ends] at written
    cases missing with
    | zero => simpa [closings] using written
    | succ missing =>
      obtain rfl := (ended (Nat.succ_ne_zero _)).2
      rw [List.append_nil] at written ⊢
      exact List.append_cancel_right written
  obtain ⟨readA, missingA, splitA, endsA, nestedA⟩ := front writesA
  obtain ⟨readB, missingB, splitB, endsB, nestedB⟩ := front writesB
  obtain rfl : readA = readB := List.append_cancel_right (splitA.symm.trans splitB)
  have sameMissing : missingA = missingB := by
    have lengths := congrArg List.length (nestedA.symm.trans nestedB)
    rwa [List.length_replicate, List.length_replicate] at lengths
  rw [endsA, endsB, sameMissing]

end Writes

/-- Whether a phrase is the longest that tokens begin with. -/
structure Phrase.Leads (lenient : Bool) (phrase : Phrase) (tokens rest : List Token) : Prop where
  valid : phrase.Valid
  wellGrouped : phrase.WellGrouped
  writes : Writes lenient phrase tokens rest
  longest : ∀ (other : Phrase) (later : List Token), other.Valid → other.WellGrouped →
    Writes lenient other tokens later → rest.length ≤ later.length

theorem Phrase.Leads.unique {lenient : Bool} {a b : Phrase} {tokens rest later : List Token}
    (leadsA : a.Leads lenient tokens rest) (leadsB : b.Leads lenient tokens later) :
    a = b ∧ rest = later := by
  have lengths := Nat.le_antisymm
    (leadsA.longest b later leadsB.valid leadsB.wellGrouped leadsB.writes)
    (leadsB.longest a rest leadsA.valid leadsA.wellGrouped leadsA.writes)
  obtain rfl : rest = later :=
    (List.suffix_of_suffix_length_le leadsA.writes.suffix leadsB.writes.suffix
      (Nat.le_of_eq lengths)).eq_of_length lengths
  exact ⟨Phrase.tokens_inj leadsA.valid leadsA.wellGrouped leadsB.valid leadsB.wellGrouped
    (leadsA.writes.tokens_eq leadsB.writes), rfl⟩

theorem Reads.leads {lenient : Bool} {tokens rest : List Token} {phrase : Phrase}
    (h : Reads lenient (.formula 0) tokens phrase rest) : phrase.Leads lenient tokens rest := by
  have settled := h.settled
  refine ⟨settled.valid, settled.wellGrouped, h.writes, fun other later valid wellGrouped writes => ?_⟩
  -- A longer phrase would go on where reading stopped, with the token that it stopped at.
  refine Nat.le_of_not_lt fun shorter => ?_
  obtain ⟨read, rfl, again⟩ := h.reread
  obtain ⟨missing, -, written, -⟩ := writes
  rw [List.append_assoc] at written
  obtain ⟨more, ends, behind⟩ | ⟨more, -, behind⟩ := List.append_eq_append_iff.mp written
  · have lengths := congrArg List.length behind
    simp only [List.length_append] at lengths
    have nonempty : more ≠ [] := List.ne_nil_of_length_pos (by omega)
    have same : more.head? = rest.head? := by
      obtain ⟨first, more, rfl⟩ := List.exists_cons_of_ne_nil nonempty
      obtain ⟨next, rest, rfl⟩ :=
        List.exists_cons_of_ne_nil (List.ne_nil_of_length_pos (l := rest) (by omega))
      exact congrArg some (List.cons.inj behind).1.symm
    have whole : Reads lenient (.formula 0) (read ++ more) other [] :=
      ends ▸ reads_tokens valid wellGrouped
    exact nonempty ((again more same).unique whole).2
  · have lengths := congrArg List.length behind
    simp only [List.length_append] at lengths
    omega

end TableFormula
