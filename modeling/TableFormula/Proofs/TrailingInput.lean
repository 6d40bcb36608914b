import TableFormula.Proofs.TruthfulFaults

namespace TableFormula

open Text TokenSource

/-- The same options but for what may follow a formula. -/
def Options.rejecting (options : Options) (reject : Bool) : Options :=
  { options with rejectTrailing := reject }

/-- The same parser but for what may follow a formula. -/
def Parser.rejecting (parser : Parser) (reject : Bool) : Parser :=
  { parser with options := parser.options.rejecting reject }

section

variable {options : Options} {owner : Owner} {tokens : List Token}

/-- What may follow a formula plays no role as long as the formula is read. -/
theorem expr_rejecting {σ : Type} [TokenSource σ] (reject : Bool) (depth least : Nat) (source : σ) :
    expr (options.rejecting reject) owner depth least source =
      expr options owner depth least source := by
  have sim : ReaderSimulation (options.rejecting reject) options owner owner (fun _ => False)
      (· = ·) (fun source source' : σ => source = source') (· = ·) :=
    ⟨fun same => same ▸ look_alike _, rfl, Nat.le_refl _, readerCongruence_eq owner⟩
  have agrees : Agrees (options.rejecting reject) options (fun _ => False) (· = ·) (· = ·)
      (expr (options.rejecting reject) owner depth least source)
      (expr options owner depth least source) := by
    refine (sim.readers.1 depth least source source rfl).mono ?_
    rintro ⟨formula, height, later⟩ ⟨_, _, _⟩ ⟨rfl, rfl, rfl⟩
    rfl
  exact agrees.eq_or_shallow.resolve_left fun ⟨lower, _⟩ => Nat.lt_irrefl _ lower

/-- Both ways end alike, or a formula is read and something follows it. -/
theorem readFormula_rejecting (options : Options) (owner : Owner) (fault : Option LexFault)
    (clean : .endOfInput ∉ tokens) :
    readFormula (options.rejecting false) owner (⟨tokens, fault⟩ : TokenStream) =
        readFormula (options.rejecting true) owner (⟨tokens, fault⟩ : TokenStream) ∨
      ∃ phrase next later,
        Reads options.allowUnclosedParens (.formula 0) tokens phrase (next :: later) ∧
        readFormula (options.rejecting false) owner (⟨tokens, fault⟩ : TokenStream) =
          .ok (phrase.formula owner) ∧
        readFormula (options.rejecting true) owner (⟨tokens, fault⟩ : TokenStream) =
          .error (.trailingInput next) := by
  unfold readFormula
  rw [expr_rejecting, expr_rejecting]
  cases read : expr options owner 0 0 (⟨tokens, fault⟩ : TokenStream) with
  | error failed => exact .inl rfl
  | ok parsed =>
    obtain ⟨phrase, rest, reads, rfl, sound⟩ :=
      (readers_faithful options owner).1 0 0 ⟨tokens, fault⟩ clean parsed read
    cases rest with
    | nil =>
      obtain rfl : fault = none := sound nofun rfl
      exact .inl rfl
    | cons next later =>
      have proper : next.isEnd = false := Token.isEnd_eq_false_iff.mpr (reads.ne_endOfInput clean)
      refine .inr ⟨phrase, next, later, reads, rfl, ?_⟩
      show (if next.isEnd = true then _ else Except.error (ParseError.trailingInput next)) = _
      rw [proper]
      rfl

/-- Where reading stops at a token, no longer front of the tokens is a formula by itself. -/
theorem Reads.not_accepted {phrase : Phrase} {found : Token} {front behind longer : List Token}
    (reads : Reads options.allowUnclosedParens (.formula 0) (front ++ found :: behind) phrase
      (found :: behind))
    (clean : .endOfInput ∉ front ++ found :: behind) (begins : longer <+: front ++ found :: behind)
    (more : front.length < longer.length) (formula : Formula) :
    readFormula (options.rejecting true) owner ({ tokens := longer } : TokenStream) ≠ .ok formula := by
  intro accepted
  obtain ⟨later, rfl⟩ := List.prefix_of_prefix_length_le (List.prefix_append front _) begins
    (Nat.le_of_lt more)
  obtain ⟨next, later, rfl⟩ := List.exists_cons_of_ne_nil (l := later) fun none => by
    rw [none, List.append_nil] at more
    exact Nat.lt_irrefl _ more
  obtain rfl : found = next := by
    obtain ⟨rest, same⟩ := (List.prefix_append_right_inj front).mp begins
    exact (List.cons.inj same).1.symm
  obtain ⟨read, split, again⟩ := reads.reread
  obtain rfl : front = read := List.append_cancel_right split
  obtain ⟨other, rest, otherReads, -, -, whole⟩ :=
    reads_of_readFormula (fun member => clean (begins.subset member)) accepted
  obtain rfl := whole rfl
  exact nomatch ((again (found :: later) rfl).unique otherReads).2

end

section

variable {parser : Parser} {owner : Owner} {text : String} {tokens : List Token} {found : Token}

theorem parseFor_ne_trailingInput :
    (parser.rejecting false).parseFor owner text ≠ .error (.trailingInput found) := by
  intro failed
  obtain ⟨_, ⟨⟩⟩ | ⟨⟨⟩⟩ | ⟨rest, fails, -⟩ := parseFor_error failed
  cases fails with
  | inside fails =>
    obtain ⟨part, later, refuses, -⟩ := fails.exists_refuses
    cases refuses
  | trailing reject => cases reject

end

/-- Where nothing is found behind a formula, it makes no difference whether it would be rejected.
Where a token is found there, the formula is given if it is not rejected, and it is the formula of the
tokens in front of that token: these are accepted by themselves, and no longer front is. -/
theorem parseFor_rejecting (parser : Parser) (owner : Owner) (text : String) :
    ((∀ found, (parser.rejecting true).parseFor owner text ≠ .error (.trailingInput found)) →
      (parser.rejecting false).parseFor owner text =
        (parser.rejecting true).parseFor owner text) ∧
    ∀ found, (parser.rejecting true).parseFor owner text = .error (.trailingInput found) →
      ∃ formula front behind fault,
        (parser.rejecting false).parseFor owner text = .ok formula ∧
        TokenStream.ofFormula text = ⟨front ++ found :: behind, fault⟩ ∧
        (parser.rejecting true).parseTokens owner { tokens := front } = .ok formula ∧
        ∀ longer, longer <+: front ++ found :: behind → front.length < longer.length →
          ∀ other, (parser.rejecting true).parseTokens owner { tokens := longer } ≠ .ok other := by
  have unrejected : ∀ found,
      (parser.rejecting false).parseFor owner text ≠ .error (.trailingInput found) :=
    fun _ => parseFor_ne_trailingInput
  cases blank : text.toList.all isBlank with
  | true =>
    rw [parseFor_blank _ _ blank, parseFor_blank _ _ blank]
    exact ⟨fun _ => rfl, fun found rejected => nomatch rejected⟩
  | false =>
    have clean : .endOfInput ∉ (TokenStream.ofFormula text).tokens :=
      TokenStream.endOfInput_notMem 0 (trim text.toList)
    have streamed : ∀ parser : Parser, parser.parseFor owner text =
        readFormula parser.options owner (TokenStream.ofFormula text) := fun parser =>
      parseFor_eq_readFormula parser owner blank
    simp only [streamed] at unrejected ⊢
    generalize TokenStream.ofFormula text = stream at clean unrejected ⊢
    obtain ⟨tokens, fault⟩ := stream
    obtain same | ⟨phrase, next, later, reads, given, rejected⟩ :=
      readFormula_rejecting parser.options owner fault clean
    · exact ⟨fun _ => same, fun found rejected => absurd (same.trans rejected) (unrejected found)⟩
    · refine ⟨fun never => absurd rejected (never next), fun found same => ?_⟩
      obtain rfl : next = found := by
        cases rejected.symm.trans same
        rfl
      obtain rfl : tokens = phrase.tokens ++ next :: later := reads.writes.eq_of_cons
      have loosely : Reads (parser.rejecting false).options.allowUnclosedParens (.formula 0)
          (phrase.tokens ++ next :: later) phrase (next :: later) := reads
      have within : phrase.Within parser.options.maxDepth owner 0 :=
        loosely.within_of_readFormula sound_cons (fun never => absurd never Bool.false_ne_true) given
      refine ⟨phrase.formula owner, phrase.tokens, later, fault, given, rfl, ?_,
        fun longer begins more other => ?_⟩
      · rw [parseTokens_eq_readFormula phrase.tokens_ne_nil]
        have alone : Reads (parser.rejecting true).options.allowUnclosedParens (.formula 0)
            phrase.tokens phrase [] := reads_tokens reads.settled.valid reads.settled.wellGrouped
        exact (readFormula_of_reads alone (fun _ => rfl) fun _ => rfl).trans (if_pos within)
      · rw [parseTokens_eq_readFormula (List.ne_nil_of_length_pos (Nat.zero_lt_of_lt more))]
        exact reads.not_accepted clean begins more other

/-- Behind the formula `1`, the token `2` is found and the fault is not met. -/
theorem parseFor_rejecting_unread_fault :
    (({} : Parser).rejecting true).parseFor {} "1 2$" = .error (.trailingInput (.number "2")) ∧
      ∃ formula front behind fault,
        (({} : Parser).rejecting false).parseFor {} "1 2$" = .ok formula ∧
        TokenStream.ofFormula "1 2$" = ⟨front ++ .number "2" :: behind, fault⟩ ∧
        (({} : Parser).rejecting true).parseTokens {} { tokens := front } = .ok formula := by
  have reads : Reads true (.formula 0) [.number "1", .number "2"] (.number "1") [.number "2"] :=
    .formula (.number (by decide)) (.infixEnd (by decide)) (.conditionalEnd (by decide))
  have tokens : (TokenStream.ofText "1 2$").tokens = [.number "1", .number "2"] := by
    decide +kernel
  have rejected : (({} : Parser).rejecting true).parseFor {} "1 2$" =
      .error (.trailingInput (.number "2")) := by
    have fails : FailsWhole (({} : Parser).rejecting true).options
        (TokenStream.ofText "1 2$").tokens (.trailingInput (.number "2")) [.number "2"] := by
      rw [tokens]
      exact .trailing rfl reads
    refine parseFor_of_failsWhole (by decide) fails sound_cons ?_
    rw [tokens]
    decide
  obtain ⟨formula, front, behind, fault, given, stream, alone, -⟩ :=
    (parseFor_rejecting {} {} "1 2$").2 _ rejected
  exact ⟨rejected, formula, front, behind, fault, given, stream, alone⟩

end TableFormula
