import TableFormula.Proofs.BytePositions
import TableFormula.Proofs.TruthfulFaults

namespace TableFormula

open Text

/-- The character at which a fault is found. -/
def LexFault.character : LexFault → Char
  | invalidOperator op _ => op
  | invalidCharacter c _ => c
  | unterminatedString _ => Token.quoteMark

theorem LexFault.position_shift (bytes : Nat) (fault : LexFault) :
    (fault.shift bytes).position = bytes + fault.position := by
  cases fault <;> rfl

theorem LexFault.character_shift (bytes : Nat) (fault : LexFault) :
    (fault.shift bytes).character = fault.character := by
  cases fault <;> rfl

theorem Token.FaultAt.place {position : Nat} {c : Char} {behind : List Char} {fault : LexFault}
    (found : Token.FaultAt position c behind fault) :
    fault.position = position ∧ fault.character = c := by
  cases fault with
  | invalidOperator op place =>
    obtain ⟨rfl, rfl, -⟩ := found
    exact ⟨rfl, rfl⟩
  | invalidCharacter d place =>
    obtain ⟨rfl, rfl, -⟩ := found
    exact ⟨rfl, rfl⟩
  | unterminatedString place =>
    obtain ⟨rfl, rfl, -⟩ := found
    exact ⟨rfl, rfl⟩

theorem TokenStream.get?_of_fault {text : String} {fault : LexFault}
    (found : (ofText text).fault = some fault) :
    String.Pos.Raw.get? text ⟨fault.position⟩ = some fault.character := by
  obtain ⟨tokens, gap, back, spelled, -, -, -, stops⟩ := exists_legible 0 text.toList
  rw [← ofText, found, Nat.zero_add] at stops
  obtain ⟨c, behind, rfl, -, faulty⟩ := stops
  obtain ⟨place, character⟩ := faulty.place
  have split : text.toList = tokens.written gap ++ c :: behind := by
    rw [← spelled, SpacedTokens.written_eq_append, SpacedTokens.written_eq_append tokens gap,
      List.append_assoc]
  rw [place, character]
  exact Text.get?_of_toList split

variable {parser : Parser} {owner : Owner} {text : String} {fault : LexFault}

/-- The blanks in front of a text are missing in the position that the parser reports. -/
theorem ofText_fault_of_parseFor (failed : parser.parseFor owner text = .error (.lexical fault)) :
    (TokenStream.ofText text).fault =
      some (fault.shift (byteSize (text.toList.takeWhile isBlank))) := by
  rw [parseFor_eq_readFormula _ _ (nonBlank_of_error failed)] at failed
  have found := (readFormula_eq_lexical_iff.mp failed).1
  rw [TokenStream.ofText, TokenStream.ofChars_trim, TokenStream.shift, found]
  rfl

/-- The character at fault stands at the reported position behind the blanks in front of the text, and
so at that position of the text itself if there are no such blanks. The log shows the text with
them. -/
theorem parseFor_fault_place (failed : parser.parseFor owner text = .error (.lexical fault)) :
    String.Pos.Raw.get? text ⟨byteSize (text.toList.takeWhile isBlank) + fault.position⟩ =
      some fault.character ∧
    ((∀ c ∈ text.toList.head?, isBlank c = false) →
      String.Pos.Raw.get? text ⟨fault.position⟩ = some fault.character) ∧
    parser.loadFor owner text = (.zero, some (.fault text (.lexical fault))) := by
  have behind : String.Pos.Raw.get? text
      ⟨byteSize (text.toList.takeWhile isBlank) + fault.position⟩ = some fault.character := by
    have found := TokenStream.get?_of_fault (ofText_fault_of_parseFor failed)
    rwa [LexFault.position_shift, LexFault.character_shift] at found
  refine ⟨behind, ?_, ?_⟩
  · intro begins
    have noBlanks : text.toList.takeWhile isBlank = [] := by
      cases chars : text.toList with
      | nil => rfl
      | cons c cs =>
        rw [chars] at begins
        exact List.takeWhile_cons_of_neg (by simp [begins c rfl])
    rwa [noBlanks, byteSize_nil, Nat.zero_add] at behind
  · unfold Parser.loadFor
    rw [failed]

theorem parseFor_of_fault {tokens : List Token}
    (stream : TokenStream.ofFormula text = ⟨tokens, some fault⟩)
    (asks : parser.AsksBehind owner tokens) :
    parser.parseFor owner text = .error (.lexical fault) := by
  rw [parseFor_eq_parseTokens, Parser.parseTokens, stream, if_neg (by simp)]
  exact asks fault

theorem asksBehind_of_operand {tokens : List Token}
    (met : ∀ fault, operand parser.options owner 1 (⟨tokens, some fault⟩ : TokenStream) =
      .error (.lexical fault))
    (deep : 0 < parser.options.maxDepth) : parser.AsksBehind owner tokens := by
  intro fault
  rw [readFormula, expr_eq, if_neg (Nat.not_le.mpr deep), met]
  rfl

/-- Behind a blank of three bytes, `x = 1` has its fault at the equals sign, which is the sixth byte of
the text and the third without the blank. -/
theorem parseFor_fault_place_wide_blank :
    ({} : Parser).parseFor {} "\u3000x = 1" = .error (.lexical (.invalidOperator '=' 2)) ∧
      String.Pos.Raw.get? "\u3000x = 1" ⟨5⟩ = some '=' := by
  have stream : TokenStream.ofFormula "\u3000x = 1" =
      ⟨[.name "x"], some (.invalidOperator '=' 2)⟩ := by decide +kernel
  have asks : ({} : Parser).AsksBehind {} [.name "x"] :=
    asksBehind_of_operand (fun _ => operand_bare (by decide)) (by decide)
  have failed := parseFor_of_fault stream asks
  exact ⟨failed, (parseFor_fault_place failed).1⟩

/-- The reported position is not one in the text that is passed and logged: in `" &"` there is a blank
at position zero. -/
theorem fault_place_behind_blank :
    ({} : Parser).parseFor {} " &" = .error (.lexical (.invalidCharacter '&' 0)) ∧
      ({} : Parser).loadFor {} " &" =
        (.zero, some (.fault " &" (.lexical (.invalidCharacter '&' 0)))) ∧
      String.Pos.Raw.get? " &" ⟨0⟩ ≠ some '&' := by
  have stream : TokenStream.ofFormula " &" = ⟨[], some (.invalidCharacter '&' 0)⟩ := by
    decide +kernel
  have asks : ({} : Parser).AsksBehind {} [] := asksBehind_of_operand operand_broken (by decide)
  have failed := parseFor_of_fault stream asks
  refine ⟨failed, ?_, by decide⟩
  unfold Parser.loadFor
  rw [failed]

end TableFormula
