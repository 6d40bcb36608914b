import TableFormula.Evaluation.CallDepth
import TableFormula.Proofs.DepthLimit
import TableFormula.Proofs.LeadingPhrase

namespace TableFormula

open Text

section

variable {parser : Parser} {owner : Owner} {text : String} {formula : Formula}

theorem Phrase.Spells.leads {phrase : Phrase} (lenient : Bool) (spells : phrase.Spells text) :
    phrase.Leads lenient (TokenStream.ofText text).tokens [] := by
  rw [spells.stream]
  exact (reads_tokens spells.valid spells.wellGrouped).leads

/-- The limits that accept a text are those that neither its phrase nor its tree exceeds. -/
theorem parseFor_limitedTo_eq_ite (nonBlank : text.toList.all isBlank = false)
    (accepted : parser.parseFor owner text = .ok formula) :
    ∃ (phrase : Phrase) (rest : List Token),
      phrase.Leads parser.options.allowUnclosedParens (TokenStream.ofText text).tokens rest ∧
      (∀ (other : Phrase) (later : List Token), other.Leads parser.options.allowUnclosedParens
        (TokenStream.ofText text).tokens later → other = phrase) ∧
      (parser.options.rejectTrailing = true → rest = []) ∧
      phrase.formula owner = formula ∧
      (∀ owner limit, (parser.limitedTo limit).parseFor owner text =
        if phrase.nest ≤ limit ∧ (phrase.formula owner).height ≤ limit then
          .ok (phrase.formula owner)
        else .error (.tooDeep limit)) ∧
      formula.height ≤ parser.options.maxDepth ∧
      (∀ source, formula.evalDepth source ≤ parser.options.maxDepth) ∧
      ∀ depth part, formula.NestedCall depth part → depth ≤ parser.options.maxDepth := by
  obtain ⟨phrase, rest, reads, rfl, sound, whole⟩ := reads_of_parseFor nonBlank accepted
  have limited : ∀ owner limit, (parser.limitedTo limit).parseFor owner text =
      if phrase.nest ≤ limit ∧ (phrase.formula owner).height ≤ limit then
        .ok (phrase.formula owner)
      else .error (.tooDeep limit) := by
    intro owner limit
    have outcome : (parser.limitedTo limit).parseFor owner text =
        if phrase.Within limit owner 0 then .ok (phrase.formula owner) else .error (.tooDeep limit) :=
      parseFor_of_reads nonBlank reads sound whole
    simpa only [Phrase.Within, Nat.zero_add] using outcome
  have low : (phrase.formula owner).height ≤ parser.options.maxDepth := by
    have own := (limited owner parser.options.maxDepth).symm.trans accepted
    split at own
    · rename_i within
      exact within.2
    · cases own
  exact ⟨phrase, rest, reads.leads, fun other later leads => (leads.unique reads.leads).1, whole, rfl,
    limited, low, fun source => Nat.le_trans (Formula.evalDepth_le_height _ source) low,
    fun depth part call => Nat.le_trans call.depth_le low⟩

end

/-- The tree of `1+2+3` is three high and its phrase is nested two deep, so that the limit two is too
low for it and three is not. -/
theorem parseFor_limitedTo_sum :
    ∃ formula : Formula, ({} : Parser).parseFor {} "1+2+3" = .ok formula ∧
      (({} : Parser).limitedTo 2).parseFor {} "1+2+3" = .error (.tooDeep 2) ∧
      (({} : Parser).limitedTo 3).parseFor {} "1+2+3" = .ok formula := by
  have spells : (Phrase.between .add (.between .add (.number "1") (.number "2"))
      (.number "3")).Spells "1+2+3" := ⟨by decide, by decide, by decide +kernel⟩
  have accepted := parseFor_of_spells {} {} spells
  rw [if_pos (by decide)] at accepted
  obtain ⟨phrase, rest, -, unique, -, same, limited, -⟩ :=
    parseFor_limitedTo_eq_ite spells.nonBlank accepted
  obtain rfl := unique _ _ (spells.leads true)
  refine ⟨_, accepted, ?_, ?_⟩
  · rw [limited, if_neg (by decide)]
  · rw [limited, if_pos (by decide)]

end TableFormula
