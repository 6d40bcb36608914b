namespace TableFormula.Text

/-- Whether `code` lies in one of the ranges, which ascend: the search ends at the first range that
begins above it. -/
def inRanges (code : Nat) : List (Nat × Nat) → Bool
  | [] => false
  | (low, high) :: ranges => if code < low then false else code ≤ high || inRanges code ranges

/-- Each range ends below the start of the next. -/
def Ascending : List (Nat × Nat) → Bool
  | [] => true
  | [(low, high)] => low ≤ high
  | (low, high) :: (next, top) :: ranges =>
    low ≤ high && high < next && Ascending ((next, top) :: ranges)

theorem low_le_of_ascending {low high : Nat} {ranges : List (Nat × Nat)}
    (ascending : Ascending ((low, high) :: ranges) = true) :
    ∀ range ∈ ranges, low < range.1 := by
  induction ranges generalizing low high with
  | nil => simp
  | cons head ranges ih =>
    obtain ⟨next, top⟩ := head
    simp only [Ascending, Bool.and_eq_true, decide_eq_true_eq] at ascending
    intro range member
    rcases List.mem_cons.mp member with rfl | member
    · exact Nat.lt_of_le_of_lt ascending.1.1 ascending.1.2
    · exact Nat.lt_trans (Nat.lt_of_le_of_lt ascending.1.1 ascending.1.2)
        (ih ascending.2 range member)

theorem ascending_tail {head : Nat × Nat} {ranges : List (Nat × Nat)}
    (ascending : Ascending (head :: ranges) = true) : Ascending ranges = true := by
  cases ranges with
  | nil => rfl
  | cons next ranges =>
    simp only [Ascending, Bool.and_eq_true] at ascending
    exact ascending.2

/-- In an ascending list the search finds exactly the codes of the ranges. -/
theorem inRanges_iff {code : Nat} {ranges : List (Nat × Nat)}
    (ascending : Ascending ranges = true) :
    inRanges code ranges = true ↔ ∃ range ∈ ranges, range.1 ≤ code ∧ code ≤ range.2 := by
  induction ranges with
  | nil => simp [inRanges]
  | cons head ranges ih =>
    obtain ⟨low, high⟩ := head
    have above := low_le_of_ascending ascending
    have rest := ih (ascending_tail ascending)
    unfold inRanges
    by_cases below : code < low
    · rw [if_pos below]
      refine ⟨fun h => (nomatch h), fun ⟨range, member, least, _⟩ => ?_⟩
      rcases List.mem_cons.mp member with rfl | member
      · exact absurd least (Nat.not_le.mpr below)
      · exact absurd (above range member) (by omega)
    · rw [if_neg below, Bool.or_eq_true, decide_eq_true_eq, rest]
      constructor
      · rintro (top | ⟨range, member, bounds⟩)
        · exact ⟨_, List.mem_cons_self, Nat.not_lt.mp below, top⟩
        · exact ⟨range, List.mem_cons_of_mem _ member, bounds⟩
      · rintro ⟨range, member, bounds⟩
        rcases List.mem_cons.mp member with rfl | member
        · exact Or.inl bounds.2
        · exact Or.inr ⟨range, member, bounds⟩

end TableFormula.Text
