import TableFormula.Formula.Display
import TableFormula.Proofs.UniqueDecoding
import TableFormula.Proofs.WrittenFormulas

/-! A message shows the parts of a property without escapes, up to a character that ends them. -/

namespace TableFormula

/-- Whether each part of a reference ends at the first character that ends it where it is shown. -/
def Reference.Plain (reference : Reference) : Prop :=
  ',' ∉ reference.kind.toList ∧ Token.quoteMark ∉ reference.name.toList ∧
    ')' ∉ reference.qualifier.toList

instance : DecidablePred Reference.Plain := fun _ => inferInstanceAs (Decidable (_ ∧ _ ∧ _))

/-! ### Pieces and what ends them -/

namespace Tells

variable {p q : Prop} {a b c d : List Char}

theorem upTo_append {stop : Char} (notInA : stop ∉ a) (notInB : stop ∉ b)
    (later : a = b → Tells q c d) : Tells (a = b ∧ q) (a ++ stop :: c) (b ++ stop :: d) := by
  rw [List.append_cons a, List.append_cons b]
  exact (upTo notInA notInB).append later

/-- Pieces with a comma and a blank between them. -/
theorem comma (first : Tells p a b) (second : p → Tells q c d) :
    Tells (p ∧ q) (a ++ ',' :: ' ' :: c) (b ++ ',' :: ' ' :: d) :=
  first.append fun holds => ((second holds).cons ' ').cons ','

end Tells

theorem PrefixOp.comma_not_mem_symbol (op : PrefixOp) : ',' ∉ op.symbol.toList := by
  cases op <;> decide

theorem BinaryOp.comma_not_mem_symbol (op : BinaryOp) : ',' ∉ op.symbol.toList := by
  have all : ∀ op ∈ BinaryOp.all, ',' ∉ op.symbol.toList := by decide
  exact all op op.mem_all

@[simp] theorem BinaryOp.title_between (op : InfixOp) : (between op).title = "Binary" := rfl

@[simp] theorem BinaryOp.title_call (fn : Builtin) : (call fn).title = "Call" := rfl

/-- Binary operators share their titles with no other formula. -/
theorem BinaryOp.ne_title {text : String} (notBinary : text ≠ "Binary") (notCall : text ≠ "Call")
    (op : BinaryOp) : text ≠ op.title := by
  cases op with
  | between op => exact notBinary
  | call fn => exact notCall

theorem PrefixOp.symbol_injective {a b : PrefixOp} (h : a.symbol = b.symbol) : a = b :=
  Option.some.inj ((ofSymbol?_symbol a).symm.trans (ofSymbol?_eq_some_iff.mpr h))

namespace Formula

/-- What stands before the parenthesis where a formula is shown. -/
def title : Formula → String
  | constant _ => "Constant"
  | unary _ _ => "Unary"
  | binary op _ _ => op.title
  | conditional _ _ _ => "Ternary"
  | property _ => "Property"

/-- What stands behind it. -/
def shownParts : Formula → List Char
  | constant value => value.toInt.repr.toList ++ [')']
  | unary op operand => op.symbol.toList ++ ',' :: ' ' :: (operand.display.toList ++ [')'])
  | binary op left right =>
    op.symbol.toList ++ ',' :: ' ' ::
      (left.display.toList ++ ',' :: ' ' :: (right.display.toList ++ [')']))
  | conditional condition first second =>
    condition.display.toList ++ ',' :: ' ' ::
      (first.display.toList ++ ',' :: ' ' :: (second.display.toList ++ [')']))
  | property reference =>
    reference.kind.toList ++ ',' :: ' ' :: '\'' ::
      (reference.name.toList ++ '\'' :: ',' :: ' ' :: (reference.qualifier.toList ++ [')']))

theorem toList_display (formula : Formula) :
    formula.display.toList = formula.title.toList ++ '(' :: formula.shownParts := by
  cases formula <;> simp [display, Reference.display, title, shownParts]

theorem parenthesis_not_mem_title (formula : Formula) : '(' ∉ formula.title.toList := by
  cases formula with
  | binary op left right => cases op <;> simp [title]
  | _ => simp [title]

/-- Formulas with different titles are told apart by these. -/
theorem tells_display_of_parts {a b : Formula}
    (parts : a.title = b.title → Tells (a = b) a.shownParts b.shownParts) :
    Tells (a = b) a.display.toList b.display.toList := by
  rw [toList_display, toList_display]
  exact (Tells.upTo_append a.parenthesis_not_mem_title b.parenthesis_not_mem_title
    fun same => parts (String.toList_inj.mp same)).mono And.right

/-- Whatever stands behind a formula that is shown, it can be told which formula it is. -/
theorem tells_display (a b : Formula) (plainA : ∀ reference ∈ a.references, reference.Plain)
    (plainB : ∀ reference ∈ b.references, reference.Plain) :
    Tells (a = b) a.display.toList b.display.toList := by
  induction a generalizing b with
  | constant value =>
    refine tells_display_of_parts fun same => ?_
    cases b with
    | constant other =>
      exact (tells_number (by decide) (by decide) value other).mono (congrArg constant)
    | _ => simp [title, BinaryOp.ne_title] at same
  | unary op operand ih =>
    refine tells_display_of_parts fun same => ?_
    cases b with
    | unary op' operand' =>
      refine (Tells.upTo_append op.comma_not_mem_symbol op'.comma_not_mem_symbol fun _ =>
        ((ih operand' plainA plainB).append_right [')']).cons ' ').mono ?_
      rintro ⟨sameSymbol, rfl⟩
      rw [PrefixOp.symbol_injective (String.toList_inj.mp sameSymbol)]
    | _ => simp [title, BinaryOp.ne_title] at same
  | binary op left right ihLeft ihRight =>
    refine tells_display_of_parts fun same => ?_
    cases b with
    | binary op' left' right' =>
      obtain ⟨plainLeft, plainRight⟩ := List.forall_mem_append.mp plainA
      obtain ⟨plainLeft', plainRight'⟩ := List.forall_mem_append.mp plainB
      refine (Tells.upTo_append op.comma_not_mem_symbol op'.comma_not_mem_symbol fun _ =>
        ((ihLeft left' plainLeft plainLeft').comma fun _ =>
          (ihRight right' plainRight plainRight').append_right [')']).cons ' ').mono ?_
      rintro ⟨sameSymbol, rfl, rfl⟩
      rw [BinaryOp.symbol_injective (String.toList_inj.mp sameSymbol)]
    | _ => cases op <;> simp [title] at same
  | conditional condition first second ihCondition ihFirst ihSecond =>
    refine tells_display_of_parts fun same => ?_
    cases b with
    | conditional condition' first' second' =>
      obtain ⟨plainFront, plainSecond⟩ := List.forall_mem_append.mp plainA
      obtain ⟨plainFront', plainSecond'⟩ := List.forall_mem_append.mp plainB
      obtain ⟨plainCondition, plainFirst⟩ := List.forall_mem_append.mp plainFront
      obtain ⟨plainCondition', plainFirst'⟩ := List.forall_mem_append.mp plainFront'
      refine ((ihCondition condition' plainCondition plainCondition').comma fun _ =>
        (ihFirst first' plainFirst plainFirst').comma fun _ =>
          (ihSecond second' plainSecond plainSecond').append_right [')']).mono ?_
      rintro ⟨rfl, rfl, rfl⟩
      rfl
    | _ => simp [title, BinaryOp.ne_title] at same
  | property reference =>
    refine tells_display_of_parts fun same => ?_
    obtain ⟨kind, name, qualifier⟩ := reference
    cases b with
    | property other =>
      obtain ⟨kind', name', qualifier'⟩ := other
      obtain ⟨noComma, noQuote, noEnd⟩ := plainA _ List.mem_cons_self
      obtain ⟨noComma', noQuote', noEnd'⟩ := plainB _ List.mem_cons_self
      refine (Tells.upTo_append noComma noComma' fun _ => .cons ' ' (.cons '\''
        (Tells.upTo_append noQuote noQuote' fun _ => .cons ',' (.cons ' '
          (Tells.upTo noEnd noEnd'))))).mono ?_
      rintro ⟨sameKind, sameName, sameQualifier⟩
      obtain rfl := String.toList_inj.mp sameKind
      obtain rfl := String.toList_inj.mp sameName
      obtain rfl := String.toList_inj.mp sameQualifier
      rfl
    | _ => simp [title, BinaryOp.ne_title] at same

end Formula

/-! ### Properties that a text names -/

section

variable {owner : Owner} (noComma : ',' ∉ owner.kind.toList)
  (noQuote : Token.quoteMark ∉ owner.name.toList)

theorem Token.IsName.no_parenthesis {text : String} (named : IsName text) : ')' ∉ text.toList := by
  obtain ⟨c, cs, same, letter, nameChars⟩ := named
  have all : ∀ d ∈ text.toList, Text.isNameChar d = true := by
    rw [same]
    rintro d (_ | ⟨_, member⟩)
    · exact Bool.or_eq_true_iff.mpr (.inl letter)
    · exact List.all_eq_true.mp nameChars d member
  intro member
  exact not_mem_symbolChars (all _ member) (by decide)

include noComma noQuote

theorem Reference.Writable.plain {reference : Reference} (writable : reference.Writable owner) :
    reference.Plain := by
  obtain ⟨named, ⟨kind, quoted⟩ | ⟨own, -⟩⟩ := writable
  · have noCommas : ∀ kind ∈ propertyKinds, ',' ∉ kind.toList := by decide
    exact ⟨noCommas _ (List.contains_iff_mem.mp kind), quoted, named.no_parenthesis⟩
  · rw [own] at named ⊢
    exact ⟨noComma, noQuote, named.no_parenthesis⟩

theorem Formula.Writable.plain {formula : Formula} (writable : formula.Writable owner) :
    ∀ reference ∈ formula.references, reference.Plain := by
  induction formula with
  | constant value => exact fun _ member => absurd member List.not_mem_nil
  | unary op operand ih => exact ih writable
  | binary op left right ihLeft ihRight =>
    exact List.forall_mem_append.mpr ⟨ihLeft writable.1, ihRight writable.2⟩
  | conditional condition first second ihCondition ihFirst ihSecond =>
    exact List.forall_mem_append.mpr
      ⟨List.forall_mem_append.mpr ⟨ihCondition writable.1, ihFirst writable.2.1⟩,
        ihSecond writable.2.2⟩
  | property reference =>
    exact List.forall_mem_singleton.mpr (Reference.Writable.plain noComma noQuote writable)

end

/-- What is shown of a formula identifies it among the formulas whose properties are plain, and a text
whose owner is plain has no other properties. -/
theorem display_inj_of_plain :
    (∀ a b : Formula, (∀ reference ∈ a.references, reference.Plain) →
      (∀ reference ∈ b.references, reference.Plain) → (a.display = b.display ↔ a = b)) ∧
    ∀ (parser : Parser) (owner : Owner) (text : String) (formula : Formula),
      ',' ∉ owner.kind.toList → Token.quoteMark ∉ owner.name.toList →
      parser.parseFor owner text = .ok formula →
      ∀ reference ∈ formula.references, reference.Plain := by
  constructor
  · intro a b plainA plainB
    constructor
    · intro same
      exact (a.tells_display b plainA plainB [] [] (congrArg (·.toList ++ []) same)).1
    · rintro rfl
      rfl
  · intro parser owner text formula noComma noQuote accepted
    exact (writable_of_parseFor accepted).plain noComma noQuote

/-- A name may look like the end of a property and the beginning of another formula. -/
theorem display_inj_of_plain_misleading_name : ∃ formula : Formula,
    ({} : Parser).parseFor ⟨"skill", "Zeal, lvl), Constant(1"⟩ "par1" = .ok formula ∧
      formula.display = "Property(skill, 'Zeal, lvl), Constant(1', par1)" ∧
      formula.display ≠ (Formula.property ⟨"skill", "Zeal", "lvl"⟩).display := by
  have spells : (Phrase.bare "par1").Spells "par1" := ⟨by decide, by decide, by decide +kernel⟩
  have accepted := parseFor_of_spells {} ⟨"skill", "Zeal, lvl), Constant(1"⟩ spells
  rw [if_pos (by decide)] at accepted
  obtain ⟨identifies, plain⟩ := display_inj_of_plain
  refine ⟨_, accepted, by decide, fun same => ?_⟩
  have other : ∀ reference ∈ (Formula.property ⟨"skill", "Zeal", "lvl"⟩).references,
      reference.Plain := by decide
  have equal := (identifies _ _ (plain _ _ _ _ (by decide) (by decide) accepted) other).mp same
  exact absurd equal (by decide)

end TableFormula
