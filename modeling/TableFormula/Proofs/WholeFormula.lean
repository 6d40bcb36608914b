import Mathlib.Logic.ExistsUnique
import TableFormula.Proofs.LexerStream
import TableFormula.Proofs.ReaderOutcome

namespace TableFormula

open Text TokenSource

/-- Options under which a text must hold one formula, with all its parentheses. -/
def Options.strict (maxDepth : Nat) : Options :=
  { allowUnclosedParens := false, rejectTrailing := true, maxDepth }

/-! ### Whole formulas of a stream -/

section

variable {options : Options} {owner : Owner} {tokens rest : List Token} {fault : Option LexFault}
  {phrase : Phrase} {formula : Formula}

theorem readFormula_of_reads
    (reads : Reads options.allowUnclosedParens (.formula 0) tokens phrase rest)
    (sound : rest = [] → fault = none) (whole : options.rejectTrailing = true → rest = []) :
    readFormula options owner (⟨tokens, fault⟩ : TokenStream) =
      if phrase.Within options.maxDepth owner 0 then .ok (phrase.formula owner)
      else .error (.tooDeep options.maxDepth) := by
  have run : expr options owner 0 0 ⟨tokens, fault⟩ = phrase.outcome options owner 0 ⟨rest, fault⟩ :=
    reads.run owner fault sound 0 trivial
  unfold readFormula
  rw [run, Phrase.outcome]
  split
  · rw [ok_bind]
    split
    · rename_i noTrailing
      obtain rfl := whole noTrailing
      rw [Phrase.parsed, lookahead_stream sound]
      rfl
    · rfl
  · rfl

theorem Reads.within_of_readFormula
    (h : Reads options.allowUnclosedParens (.formula 0) tokens phrase rest)
    (sound : rest = [] → fault = none) (whole : options.rejectTrailing = true → rest = [])
    (accepted : readFormula options owner (⟨tokens, fault⟩ : TokenStream) = .ok formula) :
    phrase.Within options.maxDepth owner 0 := by
  rw [readFormula_of_reads h sound whole] at accepted
  split at accepted
  · assumption
  · cases accepted

theorem reads_of_readFormula (clean : .endOfInput ∉ tokens)
    (h : readFormula options owner (⟨tokens, fault⟩ : TokenStream) = .ok formula) :
    ∃ phrase rest, Reads options.allowUnclosedParens (.formula 0) tokens phrase rest ∧
      phrase.formula owner = formula ∧ (rest = [] → fault = none) ∧
      (options.rejectTrailing = true → rest = []) := by
  obtain ⟨parsed, read, h⟩ := ok_of_bind h
  obtain ⟨phrase, rest, reads, rfl, sound⟩ :=
    (readers_faithful options owner).1 0 0 ⟨tokens, fault⟩ clean parsed read
  refine ⟨phrase, rest, reads, ?_, sound nofun, fun noTrailing => ?_⟩
  · split at h
    · obtain ⟨ahead, _, h⟩ := ok_of_bind h
      split at h
      · exact Except.ok.inj h
      · cases h
    · exact Except.ok.inj h
  · rw [if_pos noTrailing] at h
    obtain ⟨ahead, looked, h⟩ := ok_of_bind h
    obtain ⟨-, rfl⟩ := lookahead_ok looked
    dsimp only at h
    split at h
    · rename_i ended
      cases rest with
      | nil => rfl
      | cons token rest =>
        exact absurd (Token.isEnd_iff.mp ended) (reads.ne_endOfInput clean)
    · cases h

theorem readFormula_strict_eq_ok_iff {stream : TokenStream} {depth : Nat}
    (clean : .endOfInput ∉ stream.tokens) :
    readFormula (.strict depth) owner stream = .ok formula ↔
      ∃ phrase : Phrase, phrase.Valid ∧ phrase.WellGrouped ∧ stream = { tokens := phrase.tokens } ∧
        phrase.formula owner = formula ∧ phrase.Within depth owner 0 := by
  obtain ⟨tokens, fault⟩ := stream
  constructor
  · intro accepted
    obtain ⟨phrase, rest, reads, rfl, sound, whole⟩ := reads_of_readFormula clean accepted
    have within := reads.within_of_readFormula sound whole accepted
    obtain rfl := whole rfl
    obtain rfl := sound rfl
    obtain ⟨valid, wellGrouped, -⟩ := reads.settled
    have written : tokens = phrase.tokens ++ [] := reads.writes.eq_of_strict
    rw [List.append_nil] at written
    subst written
    exact ⟨phrase, valid, wellGrouped, rfl, rfl, within⟩
  · rintro ⟨phrase, valid, wellGrouped, same, rfl, within⟩
    cases same
    have reads : Reads false (.formula 0) phrase.tokens phrase [] := reads_tokens valid wellGrouped
    rw [readFormula_of_reads reads (fun _ => rfl) (fun _ => rfl)]
    exact if_pos within

end

/-! ### Phrases of a text -/

/-- Whether a text, but for its blanks, is a well grouped phrase. -/
structure Phrase.Spells (phrase : Phrase) (text : String) : Prop where
  valid : phrase.Valid
  wellGrouped : phrase.WellGrouped
  stream : TokenStream.ofText text = { tokens := phrase.tokens }

theorem Phrase.Spells.unique {a b : Phrase} {text : String} (spellsA : a.Spells text)
    (spellsB : b.Spells text) : a = b := by
  have same := spellsA.stream.symm.trans spellsB.stream
  exact Phrase.tokens_inj spellsA.valid spellsA.wellGrouped spellsB.valid spellsB.wellGrouped
    (congrArg TokenStream.tokens same)

theorem TokenStream.ofText_tokens (text : String) :
    (ofText text).tokens = (ofChars 0 (trim text.toList)).tokens := by
  rw [ofText, ofChars_trim]
  rfl

theorem TokenStream.ofText_fault (text : String) :
    (ofText text).fault = none ↔ (ofChars 0 (trim text.toList)).fault = none := by
  rw [ofText, ofChars_trim]
  exact Option.map_eq_none_iff

theorem TokenStream.ofText_eq_iff {text : String} {tokens : List Token} :
    ofText text = { tokens } ↔ ofChars 0 (trim text.toList) = { tokens } := by
  have sameTokens := ofText_tokens text
  have sameFault := ofText_fault text
  generalize ofText text = whole at sameTokens sameFault ⊢
  generalize ofChars 0 (trim text.toList) = trimmed at sameTokens sameFault ⊢
  obtain ⟨wholeTokens, wholeFault⟩ := whole
  obtain ⟨trimmedTokens, trimmedFault⟩ := trimmed
  simp only [TokenStream.mk.injEq] at sameTokens sameFault ⊢
  rw [sameTokens, sameFault]

theorem TokenStream.endOfInput_notMem (position : Nat) (cs : List Char) :
    .endOfInput ∉ (ofChars position cs).tokens :=
  fun member => wellFormed_of_mem .endOfInput member

theorem Phrase.nest_le_length (phrase : Phrase) : phrase.nest ≤ phrase.tokens.length := by
  induction phrase with
  | number | bare | reference => simp [nest, tokens]
  | call fn first second ihFirst ihSecond =>
    simp only [nest, tokens, List.length_cons, List.length_append]
    omega
  | group inner ih =>
    simp only [nest, tokens, List.length_cons, List.length_append]
    omega
  | prefixed op operand ih =>
    simp only [nest, tokens, List.length_cons]
    omega
  | between op left right ihLeft ihRight =>
    simp only [nest, tokens, List.length_cons, List.length_append]
    omega
  | conditional condition first second ihCondition ihFirst ihSecond =>
    simp only [nest, tokens, List.length_cons, List.length_append]
    omega

theorem Phrase.height_le_length (owner : Owner) (phrase : Phrase) :
    (phrase.formula owner).height ≤ phrase.tokens.length := by
  induction phrase with
  | number | bare | reference => simp [formula, Formula.height, tokens]
  | call fn first second ihFirst ihSecond =>
    simp only [formula, Formula.height, tokens, List.length_cons, List.length_append]
    omega
  | group inner ih =>
    simp only [formula, tokens, List.length_cons, List.length_append]
    omega
  | prefixed op operand ih =>
    simp only [formula, Formula.height, tokens, List.length_cons]
    omega
  | between op left right ihLeft ihRight =>
    simp only [formula, Formula.height, tokens, List.length_cons, List.length_append]
    omega
  | conditional condition first second ihCondition ihFirst ihSecond =>
    simp only [formula, Formula.height, tokens, List.length_cons, List.length_append]
    omega

theorem Phrase.Spells.length_le {phrase : Phrase} {text : String} (spells : phrase.Spells text) :
    phrase.tokens.length ≤ text.utf8ByteSize := by
  have few := TokenStream.length_tokens_le 0 text.toList
  have same : (TokenStream.ofChars 0 text.toList).tokens = phrase.tokens :=
    congrArg TokenStream.tokens spells.stream
  have size : text.utf8ByteSize = byteSize text.toList := by
    rw [← utf8ByteSize_eq_byteSize, String.ofList_toList]
  rw [same] at few
  rw [size]
  exact Nat.le_trans few (length_le_byteSize _)

theorem Phrase.Spells.nonBlank {phrase : Phrase} {text : String} (spells : phrase.Spells text) :
    text.toList.all isBlank = false := by
  refine Bool.eq_false_iff.mpr fun blank => phrase.tokens_ne_nil ?_
  have stream := spells.stream
  rw [TokenStream.ofText, TokenStream.ofChars_blank blank] at stream
  exact (congrArg TokenStream.tokens stream).symm

theorem Phrase.Spells.within {phrase : Phrase} {text : String} (spells : phrase.Spells text)
    (owner : Owner) {limit : Nat} (long : text.utf8ByteSize ≤ limit) :
    phrase.Within limit owner 0 := by
  have few := spells.length_le
  have nest := phrase.nest_le_length
  have height := phrase.height_le_length owner
  exact ⟨by omega, by omega⟩

/-! ### Formulas of a text -/

section

variable {parser : Parser} {text : String} {owner : Owner} {formula : Formula} {depth : Nat}

theorem reads_of_parseFor (nonBlank : text.toList.all isBlank = false)
    (accepted : parser.parseFor owner text = .ok formula) :
    ∃ phrase rest, Reads parser.options.allowUnclosedParens (.formula 0)
        (TokenStream.ofText text).tokens phrase rest ∧
      phrase.formula owner = formula ∧ (rest = [] → (TokenStream.ofText text).fault = none) ∧
      (parser.options.rejectTrailing = true → rest = []) := by
  rw [parseFor_eq_readFormula _ _ nonBlank] at accepted
  obtain ⟨phrase, rest, reads, same, sound, whole⟩ :=
    reads_of_readFormula (TokenStream.endOfInput_notMem _ _) accepted
  rw [← TokenStream.ofText_tokens] at reads
  exact ⟨phrase, rest, reads, same, fun ended => (TokenStream.ofText_fault text).mpr (sound ended),
    whole⟩

theorem parseFor_of_reads {phrase : Phrase} {rest : List Token}
    (nonBlank : text.toList.all isBlank = false)
    (reads : Reads parser.options.allowUnclosedParens (.formula 0) (TokenStream.ofText text).tokens
      phrase rest)
    (sound : rest = [] → (TokenStream.ofText text).fault = none)
    (whole : parser.options.rejectTrailing = true → rest = []) : parser.parseFor owner text =
      if phrase.Within parser.options.maxDepth owner 0 then .ok (phrase.formula owner)
      else .error (.tooDeep parser.options.maxDepth) := by
  rw [parseFor_eq_readFormula _ _ nonBlank]
  rw [TokenStream.ofText_tokens] at reads
  exact readFormula_of_reads reads (fun ended => (TokenStream.ofText_fault text).mp (sound ended)) whole

theorem Reads.nonBlank {lenient : Bool} {least : Nat} {phrase : Phrase} {rest : List Token}
    (h : Reads lenient (.formula least) (TokenStream.ofText text).tokens phrase rest) :
    text.toList.all isBlank = false := by
  refine Bool.eq_false_iff.mpr fun blank => ?_
  rw [TokenStream.ofText, TokenStream.ofChars_blank blank] at h
  cases h with
  | formula first _ _ => cases first

theorem Reads.within_of_parseFor {phrase : Phrase} {rest : List Token}
    (h : Reads parser.options.allowUnclosedParens (.formula 0) (TokenStream.ofText text).tokens
      phrase rest)
    (sound : rest = [] → (TokenStream.ofText text).fault = none)
    (whole : parser.options.rejectTrailing = true → rest = [])
    (accepted : parser.parseFor owner text = .ok formula) :
    phrase.Within parser.options.maxDepth owner 0 := by
  rw [parseFor_eq_readFormula _ _ h.nonBlank] at accepted
  rw [TokenStream.ofText_tokens] at h
  exact h.within_of_readFormula (fun ended => (TokenStream.ofText_fault text).mp (sound ended)) whole
    accepted

theorem parseFor_of_spells (parser : Parser) (owner : Owner) {phrase : Phrase}
    (spells : phrase.Spells text) : parser.parseFor owner text =
      if phrase.Within parser.options.maxDepth owner 0 then .ok (phrase.formula owner)
      else .error (.tooDeep parser.options.maxDepth) := by
  have reads : Reads parser.options.allowUnclosedParens (.formula 0) (TokenStream.ofText text).tokens
      phrase [] := spells.stream ▸ reads_tokens spells.valid spells.wellGrouped
  exact parseFor_of_reads spells.nonBlank reads (fun _ => by rw [spells.stream]) fun _ => rfl

theorem parseFor_blank (parser : Parser) (owner : Owner) (blank : text.toList.all isBlank = true) :
    parser.parseFor owner text = .ok .zero := by
  unfold Parser.parseFor
  rw [trim_eq_nil_iff.mpr blank]

theorem parseFor_strict_eq_ok_iff (nonBlank : text.toList.all isBlank = false) :
    ({ options := .strict depth } : Parser).parseFor owner text = .ok formula ↔
      ∃ phrase : Phrase, phrase.Spells text ∧ phrase.formula owner = formula ∧
        phrase.Within depth owner 0 := by
  rw [parseFor_eq_readFormula _ _ nonBlank,
    readFormula_strict_eq_ok_iff (TokenStream.endOfInput_notMem _ _)]
  constructor
  · rintro ⟨phrase, valid, wellGrouped, stream, same, within⟩
    exact ⟨phrase, ⟨valid, wellGrouped, TokenStream.ofText_eq_iff.mpr stream⟩, same, within⟩
  · rintro ⟨phrase, ⟨valid, wellGrouped, stream⟩, same, within⟩
    exact ⟨phrase, valid, wellGrouped, TokenStream.ofText_eq_iff.mp stream, same, within⟩

/-- Grouping follows the operators and nothing else: the formula of a text is that of the one well
grouped phrase that spells it. -/
theorem parseFor_strict_iff_unique (nonBlank : text.toList.all isBlank = false) :
    (∀ depth, ({ options := .strict depth } : Parser).parseFor owner text = .ok formula ↔
      ∃! phrase : Phrase, phrase.Spells text ∧ phrase.formula owner = formula ∧
        phrase.nest ≤ depth ∧ formula.height ≤ depth) ∧
    (∀ depth, text.utf8ByteSize < depth →
      (({ options := .strict depth } : Parser).parseFor owner text = .ok formula ↔
        ∃! phrase : Phrase, phrase.Spells text ∧ phrase.formula owner = formula)) ∧
    ∀ a b : Phrase, a.Spells text → b.Spells text → a = b := by
  refine ⟨fun depth => ?_, fun depth long => ?_, fun a b => Phrase.Spells.unique⟩
  · rw [parseFor_strict_eq_ok_iff nonBlank]
    constructor
    · rintro ⟨phrase, spells, rfl, nest, height⟩
      rw [Nat.zero_add] at nest
      exact ⟨phrase, ⟨spells, rfl, nest, height⟩, fun other found => found.1.unique spells⟩
    · rintro ⟨phrase, ⟨spells, rfl, nest, height⟩, -⟩
      exact ⟨phrase, spells, rfl, by rwa [Nat.zero_add], height⟩
  · rw [parseFor_strict_eq_ok_iff nonBlank]
    constructor
    · rintro ⟨phrase, spells, rfl, -⟩
      exact ⟨phrase, ⟨spells, rfl⟩, fun other found => found.1.unique spells⟩
    · rintro ⟨phrase, ⟨spells, rfl⟩, -⟩
      exact ⟨phrase, spells, rfl, spells.within owner (Nat.le_of_lt long)⟩

theorem parseFor_strict_product :
    ∃! phrase : Phrase, phrase.Spells "2*-3*4" ∧ phrase.formula {} =
      .binary (.between .multiply) (.constant 2) (.unary .negate
        (.binary (.between .multiply) (.constant 3) (.constant 4))) := by
  have spells : (Phrase.between .multiply (.number "2") (.prefixed .negate
      (.between .multiply (.number "3") (.number "4")))).Spells "2*-3*4" :=
    ⟨by decide, by decide, by decide +kernel⟩
  have accepted := parseFor_of_spells { options := .strict 7 } {} spells
  rw [if_pos (by decide)] at accepted
  exact ((parseFor_strict_iff_unique spells.nonBlank).2.1 7 (by decide)).mp accepted

end

end TableFormula
