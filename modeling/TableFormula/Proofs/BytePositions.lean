import Mathlib.Data.String.Basic
import TableFormula.Lexer.Cursor

namespace TableFormula.Text

theorem utf8Len_eq_byteSize (cs : List Char) : String.utf8Len cs = byteSize cs := by
  rw [← String.utf8ByteSize_ofList, utf8ByteSize_eq_byteSize]

theorem utf8ByteSize_eq_byteSize_toList (text : String) :
    text.utf8ByteSize = byteSize text.toList := by
  rw [← utf8ByteSize_eq_byteSize, String.ofList_toList]

variable {text : String} {front run behind : List Char}

theorem get?_of_toList {c : Char} (split : text.toList = front ++ c :: behind) :
    String.Pos.Raw.get? text ⟨byteSize front⟩ = some c := by
  rw [← @String.ofList_toList text, split, ← utf8Len_eq_byteSize, String.get?_of_valid]
  rfl

theorem isValid_of_toList (split : text.toList = front ++ behind) :
    String.Pos.Raw.IsValid text ⟨byteSize front⟩ := by
  refine String.Pos.Raw.isValid_iff_exists_append.mpr
    ⟨String.ofList front, String.ofList behind, ?_, ?_⟩
  · rw [← String.ofList_append, ← split, String.ofList_toList]
  · ext
    rw [String.byteIdx_rawEndPos, utf8ByteSize_eq_byteSize]

theorem cut?_of_toList (split : text.toList = front ++ (run ++ behind)) :
    cut? text (byteSize front) (byteSize front + byteSize run) = some run := by
  have whole : text = String.ofList (front ++ run ++ behind) := by
    rw [List.append_assoc, ← split, String.ofList_toList]
  have stop : String.Pos.Raw.IsValid text ⟨byteSize front + byteSize run⟩ := by
    rw [← byteSize_append]
    exact isValid_of_toList (split.trans (List.append_assoc ..).symm)
  have extracted : String.Pos.Raw.extract text ⟨byteSize front⟩
      ⟨byteSize front + byteSize run⟩ = String.ofList run := by
    rw [whole, ← utf8Len_eq_byteSize, ← utf8Len_eq_byteSize, String.extract_of_valid]
  rw [cut?, if_pos ⟨Nat.le_add_right _ _, isValid_of_toList split, stop⟩, extracted,
    String.toList_ofList]

theorem cut?_to_end (split : text.toList = front ++ behind) :
    cut? text (byteSize front) text.utf8ByteSize = some behind := by
  have whole : text.toList = front ++ (behind ++ []) := by rw [split, List.append_nil]
  have cut := cut?_of_toList whole
  rwa [← byteSize_append, ← split, ← utf8ByteSize_eq_byteSize_toList] at cut

end TableFormula.Text
