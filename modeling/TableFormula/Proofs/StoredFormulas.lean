import TableFormula.Formula.Json
import TableFormula.Proofs.UniqueDecoding

/-!
Strings end at their first quote without a backslash, objects with their last member, and numbers before
the brace behind them, so that each part of the stored form can be told from what follows it.
-/

namespace TableFormula

open Text

namespace Text

/-- The value of a hexadecimal digit. -/
def hexValue (digit : Char) : Nat := (List.range 16).findIdx (·.digitChar == digit)

/-- Reads one character of a JSON string, and gives the text behind it. -/
def readJsonChar : List Char → Option (Char × List Char)
  | '\\' :: 'b' :: rest => some ('\x08', rest)
  | '\\' :: 'f' :: rest => some ('\x0c', rest)
  | '\\' :: 'n' :: rest => some ('\n', rest)
  | '\\' :: 'r' :: rest => some ('\r', rest)
  | '\\' :: 't' :: rest => some ('\t', rest)
  | '\\' :: 'u' :: _ :: _ :: high :: low :: rest =>
    some (Char.ofNat (16 * hexValue high + hexValue low), rest)
  | '\\' :: c :: rest => some (c, rest)
  | c :: rest => some (c, rest)
  | [] => none

theorem hexValue_digitChar : ∀ n < 16, hexValue n.digitChar = n := by decide

theorem readJsonChar_codeEscape {c : Char} (small : c.toNat < 0x20) (rest : List Char) :
    readJsonChar (jsonCodeEscape c ++ rest) = some (c, rest) := by
  have code : 16 * hexValue (c.toNat / 16).digitChar + hexValue (c.toNat % 16).digitChar =
      c.toNat := by
    rw [hexValue_digitChar _ (by omega), hexValue_digitChar _ (by omega)]
    exact Nat.div_add_mod _ _
  show some (Char.ofNat _, rest) = _
  rw [code, Char.ofNat_toNat]

theorem readJsonChar_jsonChar (c : Char) (rest : List Char) :
    readJsonChar (jsonChar c ++ rest) = some (c, rest) := by
  unfold jsonChar
  split_ifs with delimiter backspace feed newline carriage tab small
  · rcases delimiter with rfl | rfl <;> rfl
  · subst backspace; rfl
  · subst feed; rfl
  · subst newline; rfl
  · subst carriage; rfl
  · subst tab; rfl
  · exact readJsonChar_codeEscape small rest
  · have plain : c ≠ '\\' := fun same => delimiter (.inr same)
    simp [readJsonChar, plain]

theorem jsonChar_ne_quote (c : Char) (rest later : List Char) :
    jsonChar c ++ rest ≠ '"' :: later := by
  intro same
  unfold jsonChar at same
  split_ifs at same with delimiter
  all_goals try cases same
  exact delimiter (.inl rfl)

theorem tells_jsonString (s t : String) :
    Tells (s = t) (jsonString s).toList (jsonString t).toList := by
  have body : Tells (s.toList = t.toList) (s.toList.flatMap jsonChar ++ ['"'])
      (t.toList.flatMap jsonChar ++ ['"']) :=
    .row (.of_read readJsonChar_jsonChar) fun c _ => jsonChar_ne_quote c
  rw [jsonString, jsonString, String.toList_ofList, String.toList_ofList]
  exact (body.cons '"').mono String.toList_inj.mp

end Text

/-- An object from behind one of its members on. -/
def jsonTail : List (String × String) → List Char
  | [] => ['\x7d']
  | (key, value) :: members =>
    ',' :: ((jsonString key).toList ++ ':' :: (value.toList ++ jsonTail members))

theorem toList_intercalate_members (first : String) (members : List (String × String)) :
    (",".intercalate
      (first :: members.map fun (key, value) => jsonString key ++ ":" ++ value)).toList ++
        ['\x7d'] = first.toList ++ jsonTail members := by
  induction members generalizing first with
  | nil => rfl
  | cons member members ih =>
    rw [List.map_cons, String.intercalate_cons_cons, String.toList_append, String.toList_append,
      List.append_assoc, ih]
    simp [jsonTail]

theorem toList_jsonObject_cons (key value : String) (members : List (String × String)) :
    (jsonObject ((key, value) :: members)).toList =
      '\x7b' :: ((jsonString key).toList ++ ':' :: (value.toList ++ jsonTail members)) := by
  have closed := toList_intercalate_members (jsonString key ++ ":" ++ value) members
  have brace : "\x7d".toList = ['\x7d'] := rfl
  rw [jsonObject, List.map_cons, String.toList_append, String.toList_append, brace,
    List.append_assoc, closed]
  simp

section

variable {p : Prop} {key key' value value' : String} {members members' : List (String × String)}

theorem tells_jsonTail (tells : Tells p (value.toList ++ jsonTail members)
      (value'.toList ++ jsonTail members')) :
    Tells p (jsonTail ((key, value) :: members)) (jsonTail ((key, value') :: members')) :=
  .cons ',' (((Tells.self _).append fun _ => tells.cons ':').mono And.right)

/-- Objects are told apart by their first keys and, where these are the same, by what follows. -/
theorem tells_jsonObject (tells : key = key' →
      Tells p (value.toList ++ jsonTail members) (value'.toList ++ jsonTail members')) :
    Tells p (jsonObject ((key, value) :: members)).toList
      (jsonObject ((key', value') :: members')).toList := by
  rw [toList_jsonObject_cons, toList_jsonObject_cons]
  refine .cons _ (((tells_jsonString key key').append fun same => ?_).mono And.right)
  exact (tells same).cons ':'

/-- A member with an object, whose first key is fixed. -/
theorem tells_jsonObject_object {kind kind' : String} (tells : kind = kind' →
      Tells p (value.toList ++ jsonTail members) (value'.toList ++ jsonTail members')) :
    Tells p (jsonObject [(kind, jsonObject ((key, value) :: members))]).toList
      (jsonObject [(kind', jsonObject ((key, value') :: members'))]).toList :=
  tells_jsonObject fun same => (tells_jsonObject fun _ => tells same).append_right _

end

namespace Formula

/-- Whatever stands behind the stored form of a formula, the form tells which formula it is. -/
theorem tells_toJson (a b : Formula) : Tells (a = b) a.toJson.toList b.toJson.toList := by
  induction a generalizing b with
  | constant value =>
    cases b with
    | constant other =>
      exact tells_jsonObject fun _ =>
        (tells_number (by decide) (by decide) value other).mono (congrArg constant)
    | _ => exact tells_jsonObject fun same => absurd same (by decide)
  | unary op operand ih =>
    cases b with
    | unary op' operand' =>
      refine (tells_jsonObject_object fun _ => (tells_jsonString op.name op'.name).append fun _ =>
        tells_jsonTail ((ih operand').append_right _)).mono ?_
      rintro ⟨sameName, rfl⟩
      rw [PrefixOp.name_injective sameName]
    | _ => exact tells_jsonObject fun same => absurd same (by decide)
  | binary op left right ihLeft ihRight =>
    cases b with
    | binary op' left' right' =>
      refine (tells_jsonObject_object fun _ => (tells_jsonString op.name op'.name).append fun _ =>
        tells_jsonTail ((ihLeft left').append fun _ =>
          tells_jsonTail ((ihRight right').append_right _))).mono ?_
      rintro ⟨sameName, rfl, rfl⟩
      rw [BinaryOp.name_injective sameName]
    | _ => exact tells_jsonObject fun same => absurd same (by decide)
  | conditional condition first second ihCondition ihFirst ihSecond =>
    cases b with
    | conditional condition' first' second' =>
      refine (tells_jsonObject_object fun _ => (Tells.self _).append fun _ =>
        tells_jsonTail ((ihCondition condition').append fun _ =>
          tells_jsonTail ((ihFirst first').append fun _ =>
            tells_jsonTail ((ihSecond second').append_right _)))).mono ?_
      rintro ⟨-, rfl, rfl, rfl⟩
      rfl
    | _ => exact tells_jsonObject fun same => absurd same (by decide)
  | property reference =>
    cases b with
    | property other =>
      obtain ⟨kind, name, qualifier⟩ := reference
      obtain ⟨kind', name', qualifier'⟩ := other
      refine (tells_jsonObject_object fun _ => (tells_jsonString kind kind').append fun _ =>
        tells_jsonTail ((tells_jsonString name name').append fun _ =>
          tells_jsonTail ((tells_jsonString qualifier qualifier').append_right _))).mono ?_
      rintro ⟨rfl, rfl, rfl⟩
      rfl
    | _ => exact tells_jsonObject fun same => absurd same (by decide)

/-- The stored form identifies the formula. -/
theorem toJson_inj {a b : Formula} : a.toJson = b.toJson ↔ a = b := by
  constructor
  · intro same
    exact (tells_toJson a b [] [] (congrArg (·.toList ++ []) same)).1
  · rintro rfl
    rfl

end Formula

end TableFormula
