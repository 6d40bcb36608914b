import Mathlib.Data.List.TakeWhile
import TableFormula.Token.Written

/-! The classes of characters are disjoint, so that the first character decides the kind of a token. -/

namespace TableFormula

/-! ### Classes of characters -/

namespace Text

theorem isDigit_bounds {c : Char} (h : c.isDigit = true) : 48 ≤ c.toNat ∧ c.toNat ≤ 57 := by
  simp only [Char.isDigit, ge_iff_le, Bool.and_eq_true, decide_eq_true_eq,
    UInt32.le_iff_toNat_le] at h
  exact h

theorem le_of_isLetter {c : Char} (h : isLetter c = true) : 65 ≤ c.toNat := by
  refine Nat.le_of_not_lt fun below => ?_
  rw [isLetter, letterRanges, inRanges, if_pos below] at h
  cases h

theorem not_isDigit_of_isLetter {c : Char} (h : isLetter c = true) : c.isDigit = false := by
  refine Bool.eq_false_iff.mpr fun digit => ?_
  have := le_of_isLetter h
  have := isDigit_bounds digit
  omega

theorem not_isNameChar_of_isBlank {c : Char} (h : isBlank c = true) : isNameChar c = false := by
  have apart : ∀ range ∈ blankRanges, ∀ code ∈ List.range' range.1 (range.2 + 1 - range.1),
      inRanges code letterRanges = false ∧ ¬(48 ≤ code ∧ code ≤ 57) := by decide +kernel
  obtain ⟨range, member, low, high⟩ := (isBlank_iff c).mp h
  obtain ⟨letter, digit⟩ := apart range member c.toNat (List.mem_range'_1.mpr (by omega))
  rw [isNameChar, isLetter, letter, Bool.false_or]
  exact Bool.eq_false_iff.mpr fun isDigit => digit (isDigit_bounds isDigit)

theorem not_isDigit_of_not_isNameChar {c : Char} (h : isNameChar c = false) :
    c.isDigit = false := by
  simp only [isNameChar, Bool.or_eq_false_iff] at h
  exact h.2

end Text

namespace Token

open Text

theorem forall_mem_of_all {α : Type} {p : α → Prop} [DecidablePred p] {as : List α}
    (h : as.all (fun a => decide (p a)) = true) : ∀ a ∈ as, p a :=
  fun a member => of_decide_eq_true (List.all_eq_true.mp h a member)

theorem apart_of_mem_symbolChars {c : Char} (h : c ∈ symbolChars) :
    isNameChar c = false ∧ isBlank c = false ∧ c ≠ quoteMark := by
  have apart : ∀ c ∈ symbolChars, isNameChar c = false ∧ isBlank c = false ∧ c ≠ quoteMark :=
    forall_mem_of_all (by decide)
  exact apart c h

theorem not_mem_symbolChars {c : Char} (h : isNameChar c = true) : c ∉ symbolChars := fun member => by
  rw [(apart_of_mem_symbolChars member).1] at h
  cases h

theorem ne_quoteMark {c : Char} (h : isNameChar c = true) : c ≠ quoteMark := by
  rintro rfl
  exact absurd h (by decide)

/-- A symbol is one character, or one of four and an equals sign. -/
theorem mem_symbols_cases {text : String} (h : text ∈ symbols) :
    (∃ c ∈ symbolChars, c ∉ incompleteChars ∧ text = String.ofList [c]) ∨
      ∃ c ∈ comparisonChars, text = String.ofList [c, '='] := by
  have cases : ∀ text ∈ symbols,
      text ∈ (symbolChars.filter (· ∉ incompleteChars)).map (String.ofList [·]) ∨
        text ∈ comparisonChars.map (String.ofList [·, '=']) := forall_mem_of_all (by decide)
  rcases cases text h with single | double
  · obtain ⟨c, member, rfl⟩ := List.mem_map.mp single
    obtain ⟨start, complete⟩ := List.mem_filter.mp member
    exact Or.inl ⟨c, start, of_decide_eq_true complete, rfl⟩
  · obtain ⟨c, start, rfl⟩ := List.mem_map.mp double
    exact Or.inr ⟨c, start, rfl⟩

theorem single_mem_symbols {c : Char} (start : c ∈ symbolChars) (complete : c ∉ incompleteChars) :
    String.ofList [c] ∈ symbols := by
  have all : ∀ c ∈ symbolChars, c ∉ incompleteChars → String.ofList [c] ∈ symbols :=
    forall_mem_of_all (by decide)
  exact all c start complete

theorem double_mem_symbols {c : Char} (start : c ∈ comparisonChars) :
    c ∈ symbolChars ∧ String.ofList [c, '='] ∈ symbols ∧ String.ofList [c, '='] ∉ ["<", ">"] := by
  have all : ∀ c ∈ comparisonChars, c ∈ symbolChars ∧ String.ofList [c, '='] ∈ symbols ∧
      String.ofList [c, '='] ∉ ["<", ">"] := forall_mem_of_all (by decide)
  exact all c start

theorem single_mem_iff {c : Char} (start : c ∈ symbolChars) (complete : c ∉ incompleteChars) :
    String.ofList [c] ∈ ["<", ">"] ↔ c ∈ comparisonChars := by
  have all : ∀ c ∈ symbolChars, c ∉ incompleteChars →
      (String.ofList [c] ∈ ["<", ">"] ↔ c ∈ comparisonChars) := forall_mem_of_all (by decide)
  exact all c start complete

theorem readSymbol_single {position : Nat} {c : Char} {cs : List Char} (complete : c ∉ incompleteChars)
    (stops : c ∈ comparisonChars → '=' ∉ cs.head?) :
    readSymbol position c cs = .ok (symbol (String.ofList [c]), cs) := by
  unfold readSymbol
  split
  · rw [if_neg fun more => stops more rfl]
  · rw [if_neg complete]

theorem readSymbol_double {position : Nat} {c : Char} {rest : List Char} (start : c ∈ comparisonChars) :
    readSymbol position c ('=' :: rest) = .ok (symbol (String.ofList [c, '=']), rest) := by
  rw [readSymbol, if_pos start]

/-! ### The token at the beginning of a text -/

/-- Whether the text behind a token does not continue it. -/
def EndsBefore (rest : List Char) : Token → Prop
  | name _ => ∀ c ∈ rest.head?, isNameChar c = false
  | number _ => ∀ c ∈ rest.head?, c.isDigit = false
  | symbol text => text ∈ ["<", ">"] → '=' ∉ rest.head?
  | string _ | endOfInput => True

theorem head?_dropWhile {p : Char → Bool} {cs : List Char} :
    ∀ c ∈ (cs.dropWhile p).head?, p c = false := by
  intro c member
  have := List.head?_dropWhile_not p cs
  rw [Option.mem_def.mp member] at this
  exact this

theorem takeWhile_dropWhile_append {p : Char → Bool} {cs rest : List Char} (all : cs.all p = true)
    (stops : ∀ c ∈ rest.head?, p c = false) :
    (cs ++ rest).takeWhile p = cs ∧ (cs ++ rest).dropWhile p = rest := by
  have holds : ∀ c ∈ cs, p c = true := List.all_eq_true.mp all
  rw [List.takeWhile_append_of_pos holds, List.dropWhile_append_of_pos holds]
  cases rest with
  | nil => simp
  | cons c rest =>
    have fails : ¬p c = true := by rw [stops c rfl]; exact Bool.false_ne_true
    rw [List.takeWhile_cons_of_neg fails, List.dropWhile_cons_of_neg fails, List.append_nil]
    exact ⟨rfl, rfl⟩

theorem wellFormed_of_readSymbol {position : Nat} {c : Char} {cs rest : List Char} {token : Token}
    (start : c ∈ symbolChars) (h : readSymbol position c cs = .ok (token, rest)) :
    token.WellFormed ∧ token.EndsBefore rest := by
  unfold readSymbol at h
  split at h
  · split at h
    · rename_i more
      cases h
      obtain ⟨_, member, apart⟩ := double_mem_symbols more
      exact ⟨member, fun more => absurd more apart⟩
    · rename_i rest alone
      cases h
      have complete : c ∉ incompleteChars := fun member => alone (by
        have : ∀ c ∈ incompleteChars, c ∈ comparisonChars := forall_mem_of_all (by decide)
        exact this c member)
      exact ⟨single_mem_symbols start complete,
        fun more => absurd ((single_mem_iff start complete).mp more) alone⟩
  · rename_i other
    split at h
    · cases h
    · rename_i complete
      cases h
      refine ⟨single_mem_symbols start complete, fun _ next => ?_⟩
      cases cs with
      | nil => cases next
      | cons d ds => exact other ds (by rw [Option.some.inj next])

theorem wellFormed_of_readString {position : Nat} {cs rest : List Char} {token : Token}
    (h : readString position cs = .ok (token, rest)) : token.WellFormed ∧ token.EndsBefore rest := by
  unfold readString at h
  split at h
  · cases h
  · cases h
    refine ⟨fun member => ?_, trivial⟩
    have all := List.all_eq_true.mp (List.all_takeWhile (p := (· != quoteMark)) (l := cs)) quoteMark
    rw [String.toList_ofList] at member
    exact absurd (all member) (by decide)

theorem wellFormed_of_read {position : Nat} {cs rest : List Char} {token : Token}
    (h : read position cs = .ok (token, rest)) (more : token ≠ endOfInput) :
    token.WellFormed ∧ token.EndsBefore rest := by
  cases cs with
  | nil => cases h; exact absurd rfl more
  | cons c cs =>
    rw [read] at h
    split at h
    · rename_i start
      exact wellFormed_of_readSymbol start h
    split at h
    · rename_i digit
      cases h
      refine ⟨⟨by simp, ?_⟩, head?_dropWhile⟩
      simp [digit, List.all_takeWhile]
    split at h
    · exact wellFormed_of_readString h
    split at h
    · rename_i letter
      cases h
      refine ⟨⟨c, cs.takeWhile isNameChar, ?_, letter, List.all_takeWhile⟩, head?_dropWhile⟩
      exact String.toList_ofList
    · cases h

/-- A well-formed token is read back from its spelling if the rest does not continue it. -/
theorem read_spelling {position : Nat} {rest : List Char} {token : Token}
    (wellFormed : token.WellFormed) (ends : token.EndsBefore rest) :
    read position (token.spelling ++ rest) = .ok (token, rest) := by
  cases token with
  | name text =>
    obtain ⟨c, cs, spelled, letter, all⟩ := wellFormed
    have nameChar : isNameChar c = true := by rw [isNameChar, letter, Bool.true_or]
    obtain ⟨taken, dropped⟩ := takeWhile_dropWhile_append all ends
    rw [show (name text).spelling = text.toList from rfl, spelled, List.cons_append, read,
      if_neg (not_mem_symbolChars nameChar), if_neg (by simp [not_isDigit_of_isLetter letter]),
      if_neg (ne_quoteMark nameChar), if_pos letter, taken, dropped, ← spelled, String.ofList_toList]
  | string text =>
    have all : text.toList.all (· != quoteMark) = true := by
      apply List.all_eq_true.mpr
      intro c member
      exact bne_iff_ne.mpr fun same => wellFormed (same ▸ member)
    have stops : ∀ c ∈ (quoteMark :: rest).head?, (c != quoteMark) = false := by simp
    obtain ⟨taken, dropped⟩ := takeWhile_dropWhile_append all stops
    rw [spelling, List.append_assoc, List.cons_append, read, if_neg (by decide), if_neg (by decide),
      if_pos rfl, readString, List.singleton_append, taken, dropped, String.ofList_toList]
  | symbol text =>
    rcases mem_symbols_cases wellFormed with ⟨c, start, complete, rfl⟩ | ⟨c, start, rfl⟩
    · rw [show (symbol (String.ofList [c])).spelling = [c] from String.toList_ofList,
        List.singleton_append, read, if_pos start]
      exact readSymbol_single complete fun more =>
        ends ((single_mem_iff start complete).mpr more)
    · rw [show (symbol (String.ofList [c, '='])).spelling = [c, '='] from String.toList_ofList,
        List.cons_append, List.singleton_append, read, if_pos (double_mem_symbols start).1]
      exact readSymbol_double start
  | number text =>
    obtain ⟨nonempty, all⟩ := wellFormed
    obtain ⟨c, cs, spelled⟩ := List.exists_cons_of_ne_nil nonempty
    rw [spelled, List.all_cons, Bool.and_eq_true] at all
    have nameChar : isNameChar c = true := by rw [isNameChar, all.1, Bool.or_true]
    obtain ⟨taken, dropped⟩ := takeWhile_dropWhile_append all.2 ends
    rw [show (number text).spelling = text.toList from rfl, spelled, List.cons_append, read,
      if_neg (not_mem_symbolChars nameChar), if_pos all.1, taken, dropped, ← spelled,
      String.ofList_toList]
  | endOfInput => exact wellFormed.elim

theorem read_eq_ok_iff {position : Nat} {cs rest : List Char} {token : Token}
    (more : token ≠ endOfInput) :
    read position cs = .ok (token, rest) ↔
      token.WellFormed ∧ token.EndsBefore rest ∧ token.spelling ++ rest = cs := by
  constructor
  · intro h
    obtain ⟨wellFormed, ends⟩ := wellFormed_of_read h more
    exact ⟨wellFormed, ends, spelling_of_read h⟩
  · rintro ⟨wellFormed, ends, rfl⟩
    exact read_spelling wellFormed ends

theorem ne_endOfInput_of_wellFormed {token : Token} (h : token.WellFormed) : token ≠ endOfInput := by
  rintro rfl
  exact h

theorem eq_nil_of_read_endOfInput {position : Nat} {cs rest : List Char}
    (h : read position cs = .ok (endOfInput, rest)) : cs = [] := by
  cases cs with
  | nil => rfl
  | cons c cs =>
    rw [read, readSymbol.eq_def, readString] at h
    repeat' split at h
    all_goals cases h

/-! ### Texts that begin with no token -/

/-- Whether a fault at `position` is what is wrong with a text that begins with `c`. -/
def FaultAt (position : Nat) (c : Char) (cs : List Char) : LexFault → Prop
  | .invalidOperator op place => op = c ∧ place = position ∧ c ∈ incompleteChars ∧ '=' ∉ cs.head?
  | .invalidCharacter d place =>
    d = c ∧ place = position ∧ c ∉ symbolChars ∧ c.isDigit = false ∧ c ≠ quoteMark ∧
      isLetter c = false
  | .unterminatedString place => place = position ∧ c = quoteMark ∧ quoteMark ∉ cs

theorem incomplete_mem_symbolChars {c : Char} (h : c ∈ incompleteChars) : c ∈ symbolChars := by
  have all : ∀ c ∈ incompleteChars, c ∈ symbolChars := forall_mem_of_all (by decide)
  exact all c h

theorem readSymbol_eq_error_iff {position : Nat} {c : Char} {cs : List Char} {fault : LexFault} :
    readSymbol position c cs = .error fault ↔
      c ∈ incompleteChars ∧ '=' ∉ cs.head? ∧ fault = .invalidOperator c position := by
  unfold readSymbol
  split
  · constructor
    · intro h
      split at h <;> cases h
    · rintro ⟨_, alone, _⟩
      exact absurd rfl alone
  · rename_i other
    have alone : '=' ∉ cs.head? := by
      intro next
      cases cs with
      | nil => cases next
      | cons d ds => exact other ds (by rw [Option.some.inj next])
    split
    · rename_i incomplete
      exact ⟨fun h => ⟨incomplete, alone, by cases h; rfl⟩, fun h => by rw [h.2.2]⟩
    · rename_i complete
      exact ⟨fun h => (nomatch h), fun h => absurd h.1 complete⟩

theorem readString_eq_error_iff {position : Nat} {cs : List Char} {fault : LexFault} :
    readString position cs = .error fault ↔
      quoteMark ∉ cs ∧ fault = .unterminatedString position := by
  have unclosed : cs.dropWhile (· != quoteMark) = [] ↔ quoteMark ∉ cs := by
    rw [List.dropWhile_eq_nil_iff]
    exact ⟨fun all member => absurd (all _ member) (by decide),
      fun absent c member => bne_iff_ne.mpr fun same => absent (same ▸ member)⟩
  unfold readString
  split
  · rename_i none
    refine ⟨fun h => ⟨unclosed.mp none, ?_⟩, fun h => ?_⟩
    · cases h; rfl
    · rw [h.2]
  · rename_i found
    refine ⟨fun h => (nomatch h), fun h => ?_⟩
    rw [unclosed.mpr h.1] at found
    cases found

theorem read_eq_error_iff {position : Nat} {c : Char} {cs : List Char} {fault : LexFault} :
    read position (c :: cs) = .error fault ↔ FaultAt position c cs fault := by
  rw [read]
  by_cases start : c ∈ symbolChars
  · have apart := (apart_of_mem_symbolChars start).2.2
    rw [if_pos start, readSymbol_eq_error_iff]
    cases fault <;> grind [FaultAt]
  rw [if_neg start]
  have complete : c ∉ incompleteChars := fun member => start (incomplete_mem_symbolChars member)
  by_cases digit : c.isDigit = true
  · have apart : c ≠ quoteMark := ne_quoteMark (by rw [isNameChar, digit, Bool.or_true])
    rw [if_pos digit]
    cases fault <;> grind [FaultAt]
  rw [if_neg digit]
  by_cases mark : c = quoteMark
  · rw [if_pos mark, readString_eq_error_iff]
    cases fault <;> grind [FaultAt]
  rw [if_neg mark]
  by_cases letter : isLetter c = true
  · rw [if_pos letter]
    cases fault <;> grind [FaultAt]
  · rw [if_neg letter]
    cases fault <;> grind [FaultAt]

end Token

end TableFormula
