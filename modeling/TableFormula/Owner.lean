import TableFormula.Formula.Basic

/-!
In the row of a skill, the bare name `lvl` is short for the level of that skill. The owner gives such
names their kind and name.
-/

namespace TableFormula

structure Owner where
  kind : String := ""
  name : String := ""
  deriving DecidableEq

def Owner.reference (owner : Owner) (qualifier : String) : Reference :=
  ⟨owner.kind, owner.name, qualifier⟩

end TableFormula
