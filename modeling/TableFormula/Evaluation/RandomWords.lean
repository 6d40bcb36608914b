/-! A random source is a stream of words and the number of words that were drawn from it. -/

namespace TableFormula

structure RandomWords where
  word : Nat → UInt64
  drawn : Nat := 0

namespace RandomWords

/-- The source that goes through a list of words again and again; of no words, it gives zeros. -/
def ofList (words : List UInt64) : RandomWords where
  word i := words.getD (i % words.length) 0

def draw (source : RandomWords) : UInt64 × RandomWords :=
  (source.word source.drawn, { source with drawn := source.drawn + 1 })

/-- A word as the toss of a coin: the lower half of the words is heads. -/
def heads (word : UInt64) : Bool := word < 0x8000000000000000

theorem heads_iff (word : UInt64) : heads word = true ↔ word.toNat < 0x8000000000000000 := by
  simp [heads, UInt64.lt_iff_toNat_lt]

/-- The source after some more words were drawn from it. -/
def advance (source : RandomWords) (count : Nat) : RandomWords :=
  { source with drawn := source.drawn + count }

/-- The words that the next draws give. -/
def upcoming (source : RandomWords) (count : Nat) : List UInt64 :=
  (List.range count).map fun i => source.word (source.drawn + i)

@[simp] theorem advance_advance (source : RandomWords) (m n : Nat) :
    (source.advance m).advance n = source.advance (m + n) := by
  simp [advance, Nat.add_assoc]

theorem advance_inj {source : RandomWords} {m n : Nat} (same : source.advance m = source.advance n) :
    m = n := by
  simpa [advance] using same

theorem draw_eq (source : RandomWords) :
    source.draw = (source.word source.drawn, source.advance 1) := rfl

@[simp] theorem length_upcoming (source : RandomWords) (count : Nat) :
    (source.upcoming count).length = count := by
  simp [upcoming]

theorem upcoming_add (source : RandomWords) (m n : Nat) :
    source.upcoming (m + n) = source.upcoming m ++ (source.advance m).upcoming n := by
  simp [upcoming, advance, List.range_add, Function.comp_def, Nat.add_assoc]

theorem upcoming_append_iff {source : RandomWords} {front back : List UInt64} :
    source.upcoming (front ++ back).length = front ++ back ↔
      source.upcoming front.length = front ∧
        (source.advance front.length).upcoming back.length = back := by
  rw [List.length_append, upcoming_add]
  constructor
  · intro same
    exact List.append_inj same (length_upcoming source front.length)
  · rintro ⟨same, later⟩
    rw [same, later]

theorem upcoming_ofList (words : List UInt64) :
    (ofList words).upcoming words.length = words := by
  apply List.ext_getElem (length_upcoming _ _)
  intro i _ inside
  simp [upcoming, ofList, Nat.mod_eq_of_lt inside, inside]

end RandomWords

end TableFormula
