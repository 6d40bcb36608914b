import TableFormula.Proofs.TokenReading
import TableFormula.TokenStream

/-!
Blanks around a text only move the positions of its fault, and a text behind it adds its tokens, unless
the text ends in a fault.
-/

namespace TableFormula

open Text

theorem Text.trim_eq_nil_iff {cs : List Char} : trim cs = [] ↔ cs.all isBlank = true := by
  rw [trim, List.reverse_eq_nil_iff, List.dropWhile_eq_nil_iff, List.all_eq_true]
  constructor
  · intro blank
    refine List.dropWhile_eq_nil_iff.mp ?_
    cases found : cs.dropWhile isBlank with
    | nil => rfl
    | cons c rest =>
      have stops : isBlank c = false := Token.head?_dropWhile c (by rw [found]; rfl)
      rw [blank c (by rw [found]; simp)] at stops
      cases stops
  · intro blank
    rw [List.dropWhile_eq_nil_iff.mpr blank]
    exact nofun

/-- A text that is not blank keeps the blanks in front when text is put behind it. -/
theorem blanks_append {cs : List Char} (some : cs.dropWhile isBlank ≠ []) (more : List Char) :
    (cs ++ more).takeWhile isBlank = cs.takeWhile isBlank ∧
      (cs ++ more).dropWhile isBlank = cs.dropWhile isBlank ++ more := by
  have whole := congrArg List.length (List.takeWhile_append_dropWhile (p := isBlank) (l := cs))
  rw [List.length_append] at whole
  have := List.length_pos_iff.mpr some
  rw [List.takeWhile_append, List.dropWhile_append, if_neg (by omega), if_neg (by simpa using some)]
  exact ⟨rfl, rfl⟩

namespace TokenStream

def cons (token : Token) (stream : TokenStream) : TokenStream :=
  { stream with tokens := token :: stream.tokens }

/-- The tokens of two streams in turn. A fault ends the first. -/
def append (first second : TokenStream) : TokenStream :=
  match first.fault with
  | some _ => first
  | none => { second with tokens := first.tokens ++ second.tokens }

/-- What comes behind the tokens of a stream. -/
def ending : Option LexFault → Except LexFault Token
  | none => .ok .endOfInput
  | some fault => .error fault

theorem ending_injective {a b : Option LexFault} (same : ending a = ending b) : a = b := by
  cases a <;> cases b <;> cases same <;> rfl

theorem ending_ne_ok {token : Token} (proper : token ≠ .endOfInput) (fault : Option LexFault) :
    ending fault ≠ .ok token := by
  cases fault with
  | none => exact fun same => proper (Except.ok.inj same).symm
  | some fault => rintro ⟨⟩

theorem append_cons (token : Token) (first second : TokenStream) :
    (first.cons token).append second = (first.append second).cons token := by
  unfold append cons
  dsimp only
  split <;> rfl

theorem append_empty (stream : TokenStream) : stream.append { tokens := [] } = stream := by
  unfold append
  split
  · rfl
  · rename_i quiet
    rw [List.append_nil, ← quiet]

end TokenStream

/-- The fault in a text that begins `bytes` later. -/
def LexFault.shift (bytes : Nat) : LexFault → LexFault
  | invalidOperator op position => invalidOperator op (bytes + position)
  | invalidCharacter c position => invalidCharacter c (bytes + position)
  | unterminatedString position => unterminatedString (bytes + position)

/-- Whether a closing quote would end the fault. -/
def LexFault.OpenString : LexFault → Prop
  | unterminatedString _ => True
  | invalidOperator _ _ | invalidCharacter _ _ => False

def TokenStream.shift (bytes : Nat) (stream : TokenStream) : TokenStream :=
  { stream with fault := stream.fault.map (·.shift bytes) }

/-! ### Reading at another place -/

theorem Token.read_shift (bytes position : Nat) (cs : List Char) :
    Token.read (bytes + position) cs = (Token.read position cs).mapError (·.shift bytes) := by
  cases cs with
  | nil => rfl
  | cons c cs =>
    rw [Token.read, Token.read, Token.readSymbol.eq_def, Token.readSymbol.eq_def, Token.readString,
      Token.readString]
    repeat' split
    all_goals rfl

/-- A fault stays when text is put behind it that closes no string and continues no operator. -/
theorem Token.read_append_error {position : Nat} {cs more : List Char} {fault : LexFault}
    (h : Token.read position cs = .error fault) (stops : '=' ∉ more.head?)
    (quiet : fault.OpenString → Token.quoteMark ∉ more) :
    Token.read position (cs ++ more) = .error fault := by
  cases cs with
  | nil => cases h
  | cons c cs =>
    have found := Token.read_eq_error_iff.mp h
    refine Token.read_eq_error_iff.mpr ?_
    cases fault with
    | invalidOperator op place =>
      obtain ⟨same, there, incomplete, alone⟩ := found
      refine ⟨same, there, incomplete, ?_⟩
      cases cs with
      | nil => exact stops
      | cons d ds => exact alone
    | invalidCharacter d place => exact found
    | unterminatedString place =>
      obtain ⟨there, mark, unclosed⟩ := found
      refine ⟨there, mark, fun member => ?_⟩
      rcases List.mem_append.mp member with early | late
      · exact unclosed early
      · exact quiet trivial late

theorem stops_of_isBlank {c : Char} (h : isBlank c = true) : isNameChar c = false ∧ c ≠ '=' := by
  refine ⟨not_isNameChar_of_isBlank h, ?_⟩
  rintro rfl
  exact absurd h (by decide)

theorem Token.endsBefore_nil (token : Token) : token.EndsBefore [] := by
  cases token <;> simp [Token.EndsBefore]

theorem Token.EndsBefore.append {token : Token} {rest more : List Char} (ends : token.EndsBefore rest)
    (stops : ∀ c ∈ more.head?, isNameChar c = false ∧ c ≠ '=') : token.EndsBefore (rest ++ more) := by
  cases rest with
  | cons c rest => exact ends
  | nil =>
    rw [List.nil_append]
    cases token with
    | name text => exact fun c member => (stops c member).1
    | number text => exact fun c member => not_isDigit_of_not_isNameChar (stops c member).1
    | symbol text => exact fun _ member => (stops _ member).2 rfl
    | string text => trivial
    | endOfInput => trivial

/-! ### The stream of a text -/

namespace TokenStream

theorem ofChars_eq (position : Nat) (cs : List Char) : ofChars position cs =
    match Token.read (position + byteSize (cs.takeWhile isBlank)) (cs.dropWhile isBlank) with
    | .error fault => { tokens := [], fault := some fault }
    | .ok (token, rest) =>
      if token = .endOfInput then { tokens := [] }
      else
        (ofChars (position + byteSize (cs.takeWhile isBlank) + byteSize token.spelling) rest).cons
          token := by
  rw [ofChars]
  split
  · rename_i fault found
    rw [found]
  · rename_i token rest found
    rw [found]
    rfl

theorem ofChars_blank_append {position : Nat} {gap : List Char} (blank : gap.all isBlank = true)
    (cs : List Char) : ofChars position (gap ++ cs) = ofChars (position + byteSize gap) cs := by
  have blank : ∀ c ∈ gap, isBlank c = true := List.all_eq_true.mp blank
  rw [ofChars_eq, List.takeWhile_append_of_pos blank, List.dropWhile_append_of_pos blank,
    byteSize_append, ← Nat.add_assoc, ← ofChars_eq]

theorem ofChars_dropWhile (position : Nat) (cs : List Char) : ofChars position cs =
    ofChars (position + byteSize (cs.takeWhile isBlank)) (cs.dropWhile isBlank) := by
  rw [← ofChars_blank_append List.all_takeWhile, List.takeWhile_append_dropWhile]

theorem ofChars_blank {position : Nat} {cs : List Char} (blank : cs.all isBlank = true) :
    ofChars position cs = { tokens := [] } := by
  rw [ofChars_eq, List.dropWhile_eq_nil_iff.mpr (List.all_eq_true.mp blank)]
  rfl

theorem ofChars_eq_empty_iff {position : Nat} {cs : List Char} :
    ofChars position cs = { tokens := [] } ↔ cs.all isBlank = true := by
  refine ⟨fun empty => ?_, ofChars_blank⟩
  rw [ofChars_eq] at empty
  split at empty
  · cases empty
  · rename_i token rest found
    split at empty
    · rename_i atEnd
      subst atEnd
      exact List.all_eq_true.mpr
        (List.dropWhile_eq_nil_iff.mp (Token.eq_nil_of_read_endOfInput found))
    · cases empty

theorem ofChars_shift (bytes position : Nat) (cs : List Char) :
    ofChars (bytes + position) cs = (ofChars position cs).shift bytes := by
  fun_induction ofChars position cs with
  | case1 position cs blanks start fault found =>
    rw [ofChars_eq, Nat.add_assoc, Token.read_shift, found]
    rfl
  | case2 position cs blanks start rest found =>
    rw [ofChars_eq, Nat.add_assoc, Token.read_shift, found]
    rfl
  | case3 position cs blanks start token rest found more later ih =>
    rw [ofChars_eq, Nat.add_assoc, Token.read_shift, found]
    simp only [Except.mapError, if_neg more]
    rw [Nat.add_assoc, ih]
    rfl

/-- Behind a text comes what stands behind it, unless the text ends in a fault. -/
theorem ofChars_append {position : Nat} {cs more : List Char}
    (stops : ∀ c ∈ more.head?, isNameChar c = false ∧ c ≠ '=')
    (quiet : ∀ fault ∈ (ofChars position cs).fault, fault.OpenString → Token.quoteMark ∉ more) :
    ofChars position (cs ++ more) =
      (ofChars position cs).append (ofChars (position + byteSize cs) more) := by
  fun_induction ofChars position cs with
  | case1 position cs blanks start fault found =>
    have some : cs.dropWhile isBlank ≠ [] := fun none => by
      rw [none] at found
      cases found
    obtain ⟨taken, dropped⟩ := blanks_append some more
    rw [ofChars_eq, taken, dropped,
      Token.read_append_error found (fun next => (stops _ next).2 rfl) (quiet fault rfl)]
    rfl
  | case2 position cs blanks start rest found =>
    have none := List.dropWhile_eq_nil_iff.mp (Token.eq_nil_of_read_endOfInput found)
    rw [ofChars_blank_append (List.all_eq_true.mpr none)]
    rfl
  | case3 position cs blanks start token rest found proper later ih =>
    obtain ⟨wellFormed, ends, whole⟩ := (Token.read_eq_ok_iff proper).mp found
    have some : cs.dropWhile isBlank ≠ [] := fun none => by
      rw [none] at found
      cases found
      exact proper rfl
    have found : Token.read start (cs.dropWhile isBlank ++ more) = .ok (token, rest ++ more) := by
      rw [← whole, List.append_assoc]
      exact Token.read_spelling wellFormed (ends.append stops)
    have bytes : start + byteSize token.spelling + byteSize rest = position + byteSize cs := by
      have split := congrArg byteSize (List.takeWhile_append_dropWhile (p := isBlank) (l := cs))
      rw [byteSize_append, ← whole, byteSize_append] at split
      rw [show start = position + byteSize (cs.takeWhile isBlank) from rfl]
      omega
    obtain ⟨taken, dropped⟩ := blanks_append some more
    rw [ofChars_eq, taken, dropped, found]
    dsimp only
    rw [if_neg proper, ih quiet, bytes, ← append_cons]
    rfl

theorem ofChars_append_blank {position : Nat} {cs blanks : List Char}
    (blank : blanks.all isBlank = true) :
    ofChars position (cs ++ blanks) = ofChars position cs := by
  have isBlank : ∀ c ∈ blanks, isBlank c = true := List.all_eq_true.mp blank
  rw [ofChars_append, ofChars_blank blank, append_empty]
  · exact fun c member => stops_of_isBlank (isBlank c (List.mem_of_mem_head? member))
  · exact fun _ _ _ member => absurd (isBlank _ member) (by decide)

/-- The blanks behind a text show in no token. -/
theorem ofChars_trim_eq (position : Nat) (cs : List Char) :
    ofChars position (trim cs) = ofChars position (cs.dropWhile isBlank) := by
  have split : cs.dropWhile isBlank =
      trim cs ++ ((cs.dropWhile isBlank).reverse.takeWhile isBlank).reverse := by
    rw [trim, ← List.reverse_append, List.takeWhile_append_dropWhile, List.reverse_reverse]
  have blank : ((cs.dropWhile isBlank).reverse.takeWhile isBlank).reverse.all isBlank = true := by
    rw [List.all_reverse, List.all_takeWhile]
  rw [split, ofChars_append_blank blank]

/-- The stream of a text is that of the text without the blanks around it, moved by those in front. -/
theorem ofChars_trim (cs : List Char) :
    ofChars 0 cs = (ofChars 0 (trim cs)).shift (byteSize (cs.takeWhile isBlank)) := by
  rw [ofChars_dropWhile, ofChars_trim_eq, Nat.add_comm, ofChars_shift]

/-! ### Tokens of a text -/

theorem spelling_sublist (position : Nat) (cs : List Char) :
    ((ofChars position cs).tokens.flatMap Token.spelling).Sublist cs := by
  fun_induction ofChars position cs with
  | case1 position cs blanks start fault found => exact List.nil_sublist cs
  | case2 position cs blanks start rest found => exact List.nil_sublist cs
  | case3 position cs blanks start token rest found proper later ih =>
    have whole := Token.spelling_of_read found
    have suffix := (List.dropWhile_suffix isBlank (l := cs)).sublist
    rw [← whole] at suffix
    exact (List.Sublist.append (List.Sublist.refl _) ih).trans suffix

theorem wellFormed_of_mem {position : Nat} {cs : List Char} :
    ∀ token ∈ (ofChars position cs).tokens, token.WellFormed := by
  fun_induction ofChars position cs with
  | case1 position cs blanks start fault found => exact fun token member => nomatch member
  | case2 position cs blanks start rest found => exact fun token member => nomatch member
  | case3 position cs blanks start token rest found proper later ih =>
    intro other member
    rcases List.mem_cons.mp member with rfl | member
    · exact (Token.wellFormed_of_read found proper).1
    · exact ih other member

theorem spelling_ne_nil {token : Token} (wellFormed : token.WellFormed) : token.spelling ≠ [] := by
  have read : Token.read 0 (token.spelling ++ []) = .ok (token, []) :=
    Token.read_spelling wellFormed (Token.endsBefore_nil token)
  rw [List.append_nil] at read
  exact Token.spelling_ne_nil_of_read read (Token.ne_endOfInput_of_wellFormed wellFormed)

theorem length_tokens_le (position : Nat) (cs : List Char) :
    (ofChars position cs).tokens.length ≤ cs.length := by
  have spelled : ∀ tokens : List Token, (∀ token ∈ tokens, token.WellFormed) →
      tokens.length ≤ (tokens.flatMap Token.spelling).length := by
    intro tokens wellFormed
    induction tokens with
    | nil => exact Nat.le_refl 0
    | cons token tokens ih =>
      have := List.length_pos_iff.mpr (spelling_ne_nil (wellFormed token List.mem_cons_self))
      have := ih fun token member => wellFormed token (List.mem_cons_of_mem _ member)
      rw [List.flatMap_cons, List.length_append, List.length_cons]
      omega
  exact Nat.le_trans (spelled _ wellFormed_of_mem) (spelling_sublist position cs).length_le

end TokenStream

end TableFormula
