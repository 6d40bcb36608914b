import TableFormula.Owner.InFull
import TableFormula.Proofs.DepthLimit
import TableFormula.Proofs.Layouts
import TableFormula.Proofs.LeadingPhrase
import TableFormula.Proofs.WrittenFormulas

namespace TableFormula

open Text

/-! ### Other owners -/

theorem Phrase.height_formula (owner other : Owner) (phrase : Phrase) :
    (phrase.formula owner).height = (phrase.formula other).height := by
  induction phrase with
  | number | bare | reference => rfl
  | call fn first second ihFirst ihSecond =>
    rw [formula, formula, Formula.height, Formula.height, ihFirst, ihSecond]
  | group inner ih => exact ih
  | prefixed op operand ih => rw [formula, formula, Formula.height, Formula.height, ih]
  | between op left right ihLeft ihRight =>
    rw [formula, formula, Formula.height, Formula.height, ihLeft, ihRight]
  | conditional condition first second ihCondition ihFirst ihSecond =>
    rw [formula, formula, Formula.height, Formula.height, ihCondition, ihFirst, ihSecond]

theorem Phrase.within_congr {limit depth : Nat} {owner other : Owner} {phrase : Phrase} :
    phrase.Within limit owner depth ↔ phrase.Within limit other depth := by
  rw [Within, Within, phrase.height_formula owner other]

theorem owner_simulation {σ : Type} [TokenSource σ] (options : Options) (owner other : Owner) :
    ReaderSimulation options options owner other (fun _ => False) (· = ·)
      (fun source source' : σ => source = source') (fun _ _ => True) where
  look same := same ▸ look_alike _
  allowUnclosedParens := rfl
  maxDepth := Nat.le_refl _
  congruence :=
    { constant _ := trivial
      property _ := trivial
      bare _ := trivial
      unary _ _ _ _ := trivial
      binary _ _ _ _ _ _ _ := trivial
      conditional _ _ _ := trivial }

section

variable {parser : Parser} {owner other : Owner} {text : String} {formula : Formula}

theorem parseFor_error_congr {fault : ParseError} (nonBlank : text.toList.all isBlank = false)
    (failed : parser.parseFor owner text = .error fault) :
    parser.parseFor other text = .error fault := by
  rw [parseFor_eq_readFormula _ _ nonBlank] at failed ⊢
  have agrees := readFormula_simulates (owner_simulation parser.options owner other) rfl
    (Eq.refl (TokenStream.ofChars 0 (trim text.toList)))
  exact agrees.error_of_error failed

theorem leads_of_parseFor (nonBlank : text.toList.all isBlank = false)
    (accepted : parser.parseFor owner text = .ok formula) :
    ∃ phrase rest, Phrase.Leads parser.options.allowUnclosedParens phrase
        (TokenStream.ofText text).tokens rest ∧
      ∀ other, parser.parseFor other text = .ok (phrase.formula other) := by
  obtain ⟨phrase, rest, reads, rfl, sound, whole⟩ := reads_of_parseFor nonBlank accepted
  have within := reads.within_of_parseFor sound whole accepted
  refine ⟨phrase, rest, reads.leads, fun other => ?_⟩
  rw [parseFor_of_reads nonBlank reads sound whole, if_pos (Phrase.within_congr.mp within)]

end

/-! ### Phrases in full -/

section

variable (owner : Owner)

def Phrase.inFull : Phrase → Phrase
  | bare name => .reference owner.kind owner.name name
  | call fn first second => .call fn first.inFull second.inFull
  | group inner => .group inner.inFull
  | prefixed op operand => .prefixed op operand.inFull
  | between op left right => .between op left.inFull right.inFull
  | conditional condition first second =>
    .conditional condition.inFull first.inFull second.inFull
  | phrase => phrase

def Place.inFull : Place → Place
  | infixTail least chain => .infixTail least (chain.inFull owner)
  | conditionalTail least condition => .conditionalTail least (condition.inFull owner)
  | place => place

namespace Phrase

/-- In full, a phrase is the same formula for every owner. -/
theorem formula_inFull (other : Owner) (phrase : Phrase) :
    (phrase.inFull owner).formula other = phrase.formula owner := by
  induction phrase with
  | number | bare | reference => rfl
  | call fn first second ihFirst ihSecond => rw [inFull, formula, formula, ihFirst, ihSecond]
  | group inner ih => exact ih
  | prefixed op operand ih => rw [inFull, formula, formula, ih]
  | between op left right ihLeft ihRight => rw [inFull, formula, formula, ihLeft, ihRight]
  | conditional condition first second ihCondition ihFirst ihSecond =>
    rw [inFull, formula, formula, ihCondition, ihFirst, ihSecond]

theorem nest_inFull (phrase : Phrase) : (phrase.inFull owner).nest = phrase.nest := by
  induction phrase with
  | number | bare | reference => rfl
  | call fn first second ihFirst ihSecond => rw [inFull, nest, nest, ihFirst, ihSecond]
  | group inner ih => rw [inFull, nest, nest, ih]
  | prefixed op operand ih => rw [inFull, nest, nest, ih]
  | between op left right ihLeft ihRight => rw [inFull, nest, nest, ihLeft, ihRight]
  | conditional condition first second ihCondition ihFirst ihSecond =>
    rw [inFull, nest, nest, ihCondition, ihFirst, ihSecond]

theorem within_inFull {owner : Owner} {limit depth : Nat} {other : Owner} {phrase : Phrase} :
    (phrase.inFull owner).Within limit other depth ↔ phrase.Within limit owner depth := by
  rw [Within, Within, nest_inFull, formula_inFull]

end Phrase

end

/-! ### Tokens in full -/

namespace Owner

variable {owner : Owner} {afterDot : Bool} {behind : List Token}

theorem expand_cases (owner : Owner) (afterDot : Bool) (token : Token) :
    owner.expand afterDot token = [token] ∨
      ∃ name, token = .name name ∧
        owner.expand afterDot token = (Phrase.reference owner.kind owner.name name).tokens := by
  cases token with
  | name name =>
    rw [expand]
    split
    · exact .inl rfl
    · exact .inr ⟨name, rfl, rfl⟩
  | string | symbol | number | endOfInput => exact .inl rfl

theorem tokensInFull_symbol {text : String} (noDot : text ≠ ".") :
    owner.tokensInFull afterDot (.symbol text :: behind) =
      .symbol text :: owner.tokensInFull false behind := by
  rw [tokensInFull, Token.isSymbol_of_ne noDot]
  rfl

theorem tokensInFull_number (digits : String) :
    owner.tokensInFull afterDot (.number digits :: behind) =
      .number digits :: owner.tokensInFull false behind := rfl

theorem tokensInFull_bare {name : String} (free : isReserved name = false) :
    owner.tokensInFull false (.name name :: behind) =
      (Phrase.reference owner.kind owner.name name).tokens ++ owner.tokensInFull false behind := by
  rw [tokensInFull, expand, free]
  rfl

theorem tokensInFull_reserved {name : String} (reserved : isReserved name = true) :
    owner.tokensInFull afterDot (.name name :: behind) =
      .name name :: owner.tokensInFull false behind := by
  rw [tokensInFull, expand, reserved]
  rfl

theorem tokensInFull_reference {kind name qualifier : String} (found : isPropertyKind kind = true) :
    owner.tokensInFull afterDot (.name kind :: .symbol "(" :: .string name :: .symbol "." ::
        .name qualifier :: .symbol ")" :: behind) =
      .name kind :: .symbol "(" :: .string name :: .symbol "." :: .name qualifier ::
        .symbol ")" :: owner.tokensInFull false behind := by
  have dotted : owner.expand true (.name qualifier) = [.name qualifier] := by
    rw [expand, Bool.or_true]
    rfl
  rw [tokensInFull_reserved (isReserved_of_isPropertyKind found), tokensInFull_symbol (by decide)]
  show _ :: _ :: _ :: _ :: (owner.expand true (.name qualifier) ++ _) = _
  rw [dotted]
  rfl

/-- Names stay names and the other tokens stay what they are. -/
theorem nextToken_tokensInFull {α : Type} (f : Token → α)
    (names : ∀ a b, f (.name a) = f (.name b)) (tokens : List Token) :
    f (nextToken (owner.tokensInFull afterDot tokens)) = f (nextToken tokens) := by
  cases tokens with
  | nil => rfl
  | cons token tokens =>
    rw [tokensInFull]
    obtain single | ⟨name, rfl, full⟩ := expand_cases owner afterDot token
    · rw [single]
      rfl
    · rw [full]
      exact names _ _

end Owner

/-- Where a phrase is read, it is read in full where its tokens are written in full. -/
theorem Reads.inFull {owner : Owner} (kind : isPropertyKind owner.kind = true) {lenient : Bool}
    {place : Place} {tokens rest : List Token} {phrase : Phrase}
    (h : Reads lenient place tokens phrase rest) :
    Reads lenient (place.inFull owner) (owner.tokensInFull false tokens) (phrase.inFull owner)
      (owner.tokensInFull false rest) := by
  -- Where the readers look for an operator, they see the token that they saw before, or another name,
  -- which is no operator either.
  induction h with
  | formula _ _ _ ihFirst ihChain ihWhole => exact .formula ihFirst ihChain ihWhole
  | @infixEnd least _ tokens stops =>
    exact .infixEnd
      ((Owner.nextToken_tokensInFull (takesInfix least) (fun _ _ => rfl) tokens).trans stops)
  | infixMore taken _ _ ihRight ihWhole =>
    obtain ⟨rfl, -⟩ := takesInfix_eq_some_iff.mp taken
    rw [Owner.tokensInFull_symbol (InfixOp.symbol_ne_dot _)]
    exact .infixMore taken ihRight ihWhole
  | @conditionalEnd least _ tokens stops =>
    exact .conditionalEnd
      ((Owner.nextToken_tokensInFull (takesConditional least) (fun _ _ => rfl) tokens).trans stops)
  | conditionalMore taken _ _ _ ihFirst ihSecond ihWhole =>
    obtain ⟨rfl, -⟩ := takesConditional_iff.mp taken
    rw [Owner.tokensInFull_symbol (by decide)] at ihFirst ⊢
    exact .conditionalMore taken ihFirst ihSecond ihWhole
  | number fits =>
    rw [Owner.tokensInFull_number]
    exact .number fits
  | bare free _ =>
    rw [Owner.tokensInFull_bare free]
    exact .reference kind
  | reference found =>
    rw [Owner.tokensInFull_reference found]
    exact .reference found
  | call called _ _ ihFirst ihSecond =>
    rw [Owner.tokensInFull_reserved (isReserved_of_ofSymbol? called),
      Owner.tokensInFull_symbol (by decide)]
    rw [Owner.tokensInFull_symbol (by decide)] at ihFirst ihSecond
    exact .call called ihFirst ihSecond
  | prefixed found _ ih =>
    obtain rfl := PrefixOp.ofSymbol?_eq_some_iff.mp found
    rw [Owner.tokensInFull_symbol (PrefixOp.symbol_ne_dot _)]
    exact .prefixed found ih
  | group _ ih =>
    rw [Owner.tokensInFull_symbol (by decide)] at ih ⊢
    exact .group ih
  | unclosed tolerated _ ih =>
    rw [Owner.tokensInFull_symbol (by decide)]
    exact .unclosed tolerated ih

/-! ### Texts in full -/

namespace Owner

variable {owner : Owner} {afterDot : Bool}

theorem apart_expand (token : Token) : (owner.expand afterDot token).IsChain Token.Apart := by
  obtain single | ⟨name, -, full⟩ := expand_cases owner afterDot token
  · rw [single]
    exact List.isChain_singleton token
  · rw [full]
    exact (Phrase.embeds _).apart

theorem wellFormed_expand (kind : isPropertyKind owner.kind = true)
    (quoted : Token.quoteMark ∉ owner.name.toList) {token : Token} (wellFormed : token.WellFormed) :
    ∀ part ∈ owner.expand afterDot token, part.WellFormed := by
  obtain single | ⟨name, rfl, full⟩ := expand_cases owner afterDot token
  · rw [single, List.forall_mem_singleton]
    exact wellFormed
  · rw [full]
    exact Phrase.wellFormed_reference kind quoted wellFormed

theorem endsBefore_expand {token : Token} {rest : List Char} (ends : token.EndsBefore rest) :
    ∀ last ∈ (owner.expand afterDot token).getLast?, last.EndsBefore rest := by
  obtain single | ⟨name, -, full⟩ := expand_cases owner afterDot token
  · rw [single]
    rintro _ ⟨⟩
    exact ends
  · rw [full]
    rintro _ ⟨⟩
    exact fun comparison => absurd comparison (by decide)

/-- What may stand before a token without a blank may stand before it in full. -/
theorem endsBefore_expand_spelling (kind : isPropertyKind owner.kind = true) {before token : Token}
    (wellFormed : token.WellFormed) {rest : List Char}
    (ends : before.EndsBefore (token.spelling ++ rest)) (behind : List Char) :
    before.EndsBefore ((owner.expand afterDot token).flatMap Token.spelling ++ behind) := by
  have apart : before.fuses token = false := Bool.eq_false_iff.mpr fun fused =>
    Token.not_endsBefore_of_fuses wellFormed fused rest ends
  obtain single | ⟨name, rfl, full⟩ := expand_cases owner afterDot token
  · rw [single, List.flatMap_singleton]
    exact Token.endsBefore_of_not_fuses wellFormed apart behind
  · rw [full, Phrase.tokens, List.flatMap_cons, List.append_assoc]
    refine Token.endsBefore_of_not_fuses ?_ ?_ _
    · exact isName_of_isReserved (isReserved_of_isPropertyKind kind)
    · rwa [Token.fuses_name]

theorem charsInFull_blank {cs : List Char} (blank : cs.all isBlank = true) :
    owner.charsInFull afterDot cs = cs := by
  rw [charsInFull, List.dropWhile_eq_nil_iff.mpr (List.all_eq_true.mp blank)]
  rfl

theorem charsInFull_of_read {position : Nat} {cs rest : List Char} {token : Token}
    (found : Token.read position (cs.dropWhile isBlank) = .ok (token, rest))
    (proper : token ≠ .endOfInput) : owner.charsInFull afterDot cs =
      cs.takeWhile isBlank ++ ((owner.expand afterDot token).flatMap Token.spelling ++
        owner.charsInFull (token.isSymbol ".") rest) := by
  have found : Token.read 0 (cs.dropWhile isBlank) = .ok (token, rest) :=
    (Token.read_eq_ok_iff proper).mpr ((Token.read_eq_ok_iff proper).mp found)
  rw [charsInFull]
  split
  · rename_i failed
    cases failed.symm.trans found
  · rename_i same
    cases same.symm.trans found
    rw [dif_neg proper, List.append_assoc]

theorem endsBefore_charsInFull (kind : isPropertyKind owner.kind = true) {before : Token}
    {cs : List Char} (ends : before.EndsBefore cs) :
    before.EndsBefore (owner.charsInFull afterDot cs) := by
  cases found : Token.read 0 (cs.dropWhile isBlank) with
  | error fault =>
    rw [charsInFull]
    split
    · exact ends
    · rename_i same
      cases same.symm.trans found
  | ok read =>
    obtain ⟨token, rest⟩ := read
    by_cases proper : token = .endOfInput
    · subst proper
      have blank := List.dropWhile_eq_nil_iff.mp (Token.eq_nil_of_read_endOfInput found)
      rwa [charsInFull_blank (List.all_eq_true.mpr blank)]
    · obtain ⟨wellFormed, -, whole⟩ := (Token.read_eq_ok_iff proper).mp found
      rw [charsInFull_of_read found proper]
      refine Token.endsBefore_of_blank List.all_takeWhile fun none => ?_
      have split := List.takeWhile_append_dropWhile (p := isBlank) (l := cs)
      rw [none, List.nil_append, ← whole] at split
      exact endsBefore_expand_spelling kind wellFormed (split ▸ ends) _

/-- A text in full has the tokens in full. -/
theorem ofChars_charsInFull (kind : isPropertyKind owner.kind = true)
    (quoted : Token.quoteMark ∉ owner.name.toList) (position : Nat) {cs : List Char}
    (sound : (TokenStream.ofChars position cs).fault = none) :
    ∀ (place : Nat) (afterDot : Bool),
      TokenStream.ofChars place (owner.charsInFull afterDot cs) =
        { tokens := owner.tokensInFull afterDot (TokenStream.ofChars position cs).tokens } := by
  fun_induction TokenStream.ofChars position cs with
  | case1 => cases sound
  | case2 position cs blanks start rest found =>
    have blank := List.dropWhile_eq_nil_iff.mp (Token.eq_nil_of_read_endOfInput found)
    intro place afterDot
    rw [charsInFull_blank (List.all_eq_true.mpr blank),
      TokenStream.ofChars_blank (List.all_eq_true.mpr blank)]
    rfl
  | case3 position cs blanks start token rest found proper later ih =>
    obtain ⟨wellFormed, ends, -⟩ := (Token.read_eq_ok_iff proper).mp found
    intro place afterDot
    rw [charsInFull_of_read found proper, TokenStream.ofChars_blank_append List.all_takeWhile,
      TokenStream.ofChars_tight (apart_expand token) (wellFormed_expand kind quoted wellFormed)
        (endsBefore_expand (endsBefore_charsInFull kind ends)), ih sound]
    rfl

theorem ofText_inFull (kind : isPropertyKind owner.kind = true)
    (quoted : Token.quoteMark ∉ owner.name.toList) {text : String}
    (sound : (TokenStream.ofText text).fault = none) : TokenStream.ofText (owner.inFull text) =
      { tokens := owner.tokensInFull false (TokenStream.ofText text).tokens } := by
  rw [TokenStream.ofText, inFull, String.toList_ofList]
  exact ofChars_charsInFull kind quoted 0 sound 0 false

end Owner

section

variable {parser : Parser} {owner : Owner} {text : String} {formula : Formula}

theorem parseFor_inFull (kind : isPropertyKind owner.kind = true)
    (quoted : Token.quoteMark ∉ owner.name.toList) (strict : parser.options.rejectTrailing = true)
    (accepted : parser.parseFor owner text = .ok formula) (other : Owner) :
    parser.parseFor other (owner.inFull text) = .ok formula := by
  cases blank : text.toList.all isBlank with
  | true =>
    have same : owner.inFull text = text := by
      rw [Owner.inFull, Owner.charsInFull_blank blank, String.ofList_toList]
    rw [parseFor_blank _ _ blank] at accepted
    rw [same, parseFor_blank _ _ blank, accepted]
  | false =>
    obtain ⟨phrase, rest, reads, rfl, sound, whole⟩ := reads_of_parseFor blank accepted
    obtain rfl := whole strict
    have stream := Owner.ofText_inFull kind quoted (sound rfl)
    have readsFull : Reads parser.options.allowUnclosedParens (.formula 0)
        (TokenStream.ofText (owner.inFull text)).tokens (phrase.inFull owner) [] := by
      rw [stream]
      exact reads.inFull kind
    have within := reads.within_of_parseFor sound whole accepted
    rw [parseFor_of_reads readsFull.nonBlank readsFull (fun _ => by rw [stream]) fun _ => rfl,
      if_pos (Phrase.within_inFull.mpr within), Phrase.formula_inFull]

end

/-- The owner of a formula reaches its bare names only, and a bare name is short for a reference. -/
theorem parseFor_bare_names (parser : Parser) (text : String) :
    ((∃ fault, ∀ owner, parser.parseFor owner text = .error fault) ∨
      (text.toList.all isBlank = true ∧ ∀ owner, parser.parseFor owner text = .ok .zero) ∨
      ∃ phrase rest, Phrase.Leads parser.options.allowUnclosedParens phrase
          (TokenStream.ofText text).tokens rest ∧
        ∀ owner, parser.parseFor owner text = .ok (phrase.formula owner)) ∧
    ∀ owner formula, isPropertyKind owner.kind = true → Token.quoteMark ∉ owner.name.toList →
      parser.options.rejectTrailing = true → parser.parseFor owner text = .ok formula →
      ∀ other, parser.parseFor other (owner.inFull text) = .ok formula := by
  refine ⟨?_, fun owner formula kind quoted strict accepted =>
    parseFor_inFull kind quoted strict accepted⟩
  cases blank : text.toList.all isBlank with
  | true => exact .inr (.inl ⟨rfl, fun owner => parseFor_blank parser owner blank⟩)
  | false =>
    cases outcome : parser.parseFor {} text with
    | error fault => exact .inl ⟨fault, fun owner => parseFor_error_congr blank outcome⟩
    | ok formula => exact .inr (.inr (leads_of_parseFor blank outcome))

/-- In full, only the name `lvl` that stands alone is written as the level of the skill. -/
theorem parseFor_bare_names_skill :
    (⟨"skill", "Zeal"⟩ : Owner).inFull "min(lvl, 2) + stat('x'.lvl)" =
        "min(skill('Zeal'.lvl), 2) + stat('x'.lvl)" ∧
      ∀ other, ({} : Parser).parseFor other "min(skill('Zeal'.lvl), 2) + stat('x'.lvl)" =
        .ok (.binary (.between .add)
          (.binary (.call .min) (.property ⟨"skill", "Zeal", "lvl"⟩) (.constant 2))
          (.property ⟨"stat", "x", "lvl"⟩)) := by
  have full : (⟨"skill", "Zeal"⟩ : Owner).inFull "min(lvl, 2) + stat('x'.lvl)" =
      "min(skill('Zeal'.lvl), 2) + stat('x'.lvl)" := by decide +kernel
  have spells : (Phrase.between .add (.call .min (.bare "lvl") (.number "2"))
      (.reference "stat" "x" "lvl")).Spells "min(lvl, 2) + stat('x'.lvl)" :=
    ⟨by decide, by decide, by decide +kernel⟩
  have accepted := parseFor_of_spells {} ⟨"skill", "Zeal"⟩ spells
  rw [if_pos (by decide)] at accepted
  refine ⟨full, fun other => ?_⟩
  rw [← full]
  exact (parseFor_bare_names {} "min(lvl, 2) + stat('x'.lvl)").2 ⟨"skill", "Zeal"⟩ _ (by decide)
    (by decide) rfl accepted other

end TableFormula
