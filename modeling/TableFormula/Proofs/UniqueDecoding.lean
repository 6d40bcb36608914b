import Mathlib
import TableFormula.Formula.Basic

/-! Pieces of a text that tell what they were written from, whatever stands behind them. -/

namespace TableFormula

/-- Texts that begin with the one piece and with the other are equal only if the meaning holds and
they go on in the same way. -/
def Tells (meaning : Prop) (a b : List Char) : Prop :=
  ∀ x y, a ++ x = b ++ y → meaning ∧ x = y

namespace Tells

variable {p q : Prop} {a b c d : List Char}

theorem self (a : List Char) : Tells True a a :=
  fun _ _ same => ⟨trivial, List.append_cancel_left same⟩

theorem mono (tells : Tells p a b) (weaker : p → q) : Tells q a b :=
  fun x y same => (tells x y same).imp_left weaker

theorem append (first : Tells p a b) (second : p → Tells q c d) :
    Tells (p ∧ q) (a ++ c) (b ++ d) := by
  intro x y same
  rw [List.append_assoc, List.append_assoc] at same
  obtain ⟨holds, later⟩ := first _ _ same
  obtain ⟨also, rest⟩ := second holds x y later
  exact ⟨⟨holds, also⟩, rest⟩

theorem cons (c : Char) (tells : Tells p a b) : Tells p (c :: a) (c :: b) :=
  fun x y same => tells x y (List.cons.inj same).2

theorem append_right (tells : Tells p a b) (back : List Char) : Tells p (a ++ back) (b ++ back) :=
  (tells.append fun _ => self back).mono And.left

/-- Pieces that can be read back. -/
theorem of_read {α : Type} {written : α → List Char} {read : List Char → Option (α × List Char)}
    (back : ∀ value rest, read (written value ++ rest) = some (value, rest)) (v w : α) :
    Tells (v = w) (written v) (written w) := by
  intro x y same
  have both := (back v x).symm.trans ((congrArg read same).trans (back w y))
  exact Prod.mk.inj (Option.some.inj both)

/-- A row of pieces ends before a character with which no piece begins. -/
theorem row {α : Type} {written : α → List Char} {stop : Char} {vs ws : List α}
    (tells : ∀ v w, Tells (v = w) (written v) (written w))
    (goesOn : ∀ v, v ∈ vs ∨ v ∈ ws → ∀ x y, written v ++ x ≠ stop :: y) :
    Tells (vs = ws) (vs.flatMap written ++ [stop]) (ws.flatMap written ++ [stop]) := by
  induction vs generalizing ws with
  | nil =>
    cases ws with
    | nil => exact (self [stop]).mono fun _ => rfl
    | cons w ws =>
      intro x y same
      simp only [List.flatMap_cons, List.append_assoc] at same
      exact absurd same.symm (goesOn w (.inr List.mem_cons_self) _ _)
  | cons v vs ih =>
    cases ws with
    | nil =>
      intro x y same
      simp only [List.flatMap_cons, List.append_assoc] at same
      exact absurd same (goesOn v (.inl List.mem_cons_self) _ _)
    | cons w ws =>
      have later : Tells (vs = ws) (vs.flatMap written ++ [stop]) (ws.flatMap written ++ [stop]) :=
        ih fun v member => goesOn v (member.imp (.tail _) (.tail _))
      rw [List.flatMap_cons, List.flatMap_cons, List.append_assoc, List.append_assoc]
      refine ((tells v w).append fun _ => later).mono ?_
      rintro ⟨rfl, rfl⟩
      rfl

/-- A text ends before the first character that does not occur in it. -/
theorem upTo {stop : Char} (notInA : stop ∉ a) (notInB : stop ∉ b) :
    Tells (a = b) (a ++ [stop]) (b ++ [stop]) := by
  have characters : ∀ c d : Char, Tells (c = d) [c] [d] := fun c d x y same => List.cons.inj same
  have tells : Tells (a = b) (a.flatMap (fun c => [c]) ++ [stop])
      (b.flatMap (fun c => [c]) ++ [stop]) := by
    refine row characters fun c member x y same => ?_
    obtain rfl : c = stop := (List.cons.inj same).1
    exact member.elim notInA notInB
  simpa only [List.flatMap_singleton'] using tells

end Tells

theorem isDigit_or_minus_of_mem_repr {n : Int} {c : Char} (member : c ∈ n.repr.toList) :
    c.isDigit = true ∨ c = '-' := by
  have digit : ∀ {k : Nat}, c ∈ k.repr.toList → c.isDigit = true := fun member =>
    Nat.isDigit_of_mem_toDigits (by decide) (by decide) (Nat.toList_repr ▸ member)
  rw [Int.repr_eq_if] at member
  split at member
  · exact .inl (digit member)
  · rw [String.toList_append, List.mem_append] at member
    rcases member with sign | member
    · exact .inr (List.mem_singleton.mp sign)
    · exact .inl (digit member)

/-- A number ends before a character that belongs to no number. -/
theorem tells_number {stop : Char} (noDigit : stop.isDigit = false) (noSign : stop ≠ '-')
    (v w : Int64) :
    Tells (v = w) (v.toInt.repr.toList ++ [stop]) (w.toInt.repr.toList ++ [stop]) := by
  have outside : ∀ n : Int, stop ∉ n.repr.toList := by
    intro n member
    rcases isDigit_or_minus_of_mem_repr member with digit | sign
    · exact Bool.false_ne_true (noDigit.symm.trans digit)
    · exact noSign sign
  refine (Tells.upTo (outside v.toInt) (outside w.toInt)).mono fun same => ?_
  exact Int64.toInt_inj.mp (Int.repr_inj.mp (String.toList_inj.mp same))

end TableFormula
