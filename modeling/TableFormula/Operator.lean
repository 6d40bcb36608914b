/-!
Each operator has a symbol, under which it is written and shown, and a name, under which it is
stored. An infix operator and the conditional also have a precedence, and a level that their right
operands must reach: from low to high, conditionals, equality, order, sums, prefix operators,
products and powers.
-/

namespace TableFormula

inductive PrefixOp where
  | plus
  | negate
  deriving DecidableEq

inductive InfixOp where
  | equal
  | notEqual
  | less
  | greater
  | lessEqual
  | greaterEqual
  | add
  | subtract
  | multiply
  | divide
  | power
  deriving DecidableEq

/-- A function of two arguments that every formula can call. -/
inductive Builtin where
  | min
  | max
  | rand
  deriving DecidableEq

/-- An operation on two values, written between its operands or as a call. -/
inductive BinaryOp where
  | between (op : InfixOp)
  | call (fn : Builtin)
  deriving DecidableEq

/-! ### Prefix operators -/

namespace PrefixOp

def all : List PrefixOp := [.plus, .negate]

def symbol : PrefixOp → String
  | .plus => "+"
  | .negate => "-"

def name : PrefixOp → String
  | .plus => "Plus"
  | .negate => "Negate"

/-- A prefix operator binds tighter than a sum and looser than a product. -/
def precedence : PrefixOp → Nat
  | .plus | .negate => 4

def ofSymbol? (symbol : String) : Option PrefixOp := all.find? (·.symbol == symbol)

def ofName? (name : String) : Option PrefixOp := all.find? (·.name == name)

theorem mem_all (op : PrefixOp) : op ∈ all := by cases op <;> decide

theorem ofSymbol?_symbol (op : PrefixOp) : ofSymbol? op.symbol = some op := by
  cases op <;> decide

theorem ofSymbol?_eq_some_iff {symbol : String} {op : PrefixOp} :
    ofSymbol? symbol = some op ↔ symbol = op.symbol :=
  ⟨fun found => by
    have h := List.find?_some found
    exact (beq_iff_eq.mp h).symm, fun h => h ▸ ofSymbol?_symbol op⟩

theorem name_injective {a b : PrefixOp} (h : a.name = b.name) : a = b := by
  have distinct : ∀ a ∈ all, ∀ b ∈ all, a.name = b.name → a = b := by decide
  exact distinct a a.mem_all b b.mem_all h

end PrefixOp

/-! ### Infix operators -/

namespace InfixOp

def all : List InfixOp :=
  [.equal, .notEqual, .less, .greater, .lessEqual, .greaterEqual, .add, .subtract, .multiply,
    .divide, .power]

def symbol : InfixOp → String
  | .equal => "=="
  | .notEqual => "!="
  | .less => "<"
  | .greater => ">"
  | .lessEqual => "<="
  | .greaterEqual => ">="
  | .add => "+"
  | .subtract => "-"
  | .multiply => "*"
  | .divide => "/"
  | .power => "^"

def name : InfixOp → String
  | .equal => "Equal"
  | .notEqual => "NotEqual"
  | .less => "Less"
  | .greater => "Greater"
  | .lessEqual => "LessEqual"
  | .greaterEqual => "GreaterEqual"
  | .add => "Add"
  | .subtract => "Subtract"
  | .multiply => "Multiply"
  | .divide => "Divide"
  | .power => "Power"

def precedence : InfixOp → Nat
  | .equal | .notEqual => 1
  | .less | .greater | .lessEqual | .greaterEqual => 2
  | .add | .subtract => 3
  | .multiply | .divide => 5
  | .power => 6

/-- Whether a chain of the operator groups from the right. -/
def groupsRight : InfixOp → Bool
  | .power => true
  | _ => false

/-- The least precedence that an operator may have in the right operand without parentheses. -/
def operandLevel (op : InfixOp) : Nat :=
  if op.groupsRight then op.precedence else op.precedence + 1

def ofSymbol? (symbol : String) : Option InfixOp := all.find? (·.symbol == symbol)

theorem mem_all (op : InfixOp) : op ∈ all := by cases op <;> decide

theorem ofSymbol?_symbol (op : InfixOp) : ofSymbol? op.symbol = some op := by
  cases op <;> decide

theorem ofSymbol?_eq_some_iff {symbol : String} {op : InfixOp} :
    ofSymbol? symbol = some op ↔ symbol = op.symbol :=
  ⟨fun found => by
    have h := List.find?_some found
    exact (beq_iff_eq.mp h).symm, fun h => h ▸ ofSymbol?_symbol op⟩

end InfixOp

/-! ### Built-in functions -/

namespace Builtin

def all : List Builtin := [.min, .max, .rand]

def symbol : Builtin → String
  | .min => "min"
  | .max => "max"
  | .rand => "rand"

def name : Builtin → String
  | .min => "Min"
  | .max => "Max"
  | .rand => "Rand"

def ofSymbol? (symbol : String) : Option Builtin := all.find? (·.symbol == symbol)

theorem mem_all (fn : Builtin) : fn ∈ all := by cases fn <;> decide

theorem ofSymbol?_symbol (fn : Builtin) : ofSymbol? fn.symbol = some fn := by
  cases fn <;> decide

theorem ofSymbol?_eq_some_iff {symbol : String} {fn : Builtin} :
    ofSymbol? symbol = some fn ↔ symbol = fn.symbol :=
  ⟨fun found => by
    have h := List.find?_some found
    exact (beq_iff_eq.mp h).symm, fun h => h ▸ ofSymbol?_symbol fn⟩

end Builtin

/-! ### Operations on two values -/

namespace BinaryOp

def all : List BinaryOp := InfixOp.all.map .between ++ Builtin.all.map .call

def symbol : BinaryOp → String
  | .between op => op.symbol
  | .call fn => fn.symbol

def name : BinaryOp → String
  | .between op => op.name
  | .call fn => fn.name

def isCall : BinaryOp → Bool
  | .between _ => false
  | .call _ => true

def isRandom (op : BinaryOp) : Bool := op == .call .rand

def ofName? (name : String) : Option BinaryOp := all.find? (·.name == name)

theorem mem_all (op : BinaryOp) : op ∈ all := by
  rcases op with op | fn
  · exact List.mem_append_left _ (List.mem_map_of_mem op.mem_all)
  · exact List.mem_append_right _ (List.mem_map_of_mem fn.mem_all)

theorem symbol_injective {a b : BinaryOp} (h : a.symbol = b.symbol) : a = b := by
  have distinct : ∀ a ∈ all, ∀ b ∈ all, a.symbol = b.symbol → a = b := by decide
  exact distinct a a.mem_all b b.mem_all h

theorem name_injective {a b : BinaryOp} (h : a.name = b.name) : a = b := by
  have distinct : ∀ a ∈ all, ∀ b ∈ all, a.name = b.name → a = b := by decide
  exact distinct a a.mem_all b b.mem_all h

end BinaryOp

/-! ### The conditional

`c ? a : b` is the only operator of three operands. Its symbol opens it and its marker divides the
branches. -/

namespace Conditional

def symbol : String := "?"

def marker : String := ":"

def shown : String := symbol ++ marker

def name : String := "Conditional"

def precedence : Nat := 0

def groupsRight : Bool := true

/-- The least precedence that an operator may have in a branch: a branch may be any formula. -/
def operandLevel : Nat := if groupsRight then precedence else precedence + 1

end Conditional

/-- One of the two branches of a conditional. -/
inductive Branch where
  | first
  | second
  deriving DecidableEq

/-- The branch that a condition selects: the second exactly if it is zero. -/
def Branch.select (condition : Int64) : Branch := if condition = 0 then .second else .first

/-! ### Reserved names -/

/-- The names that begin a property reference such as `skill('Zeal'.lvl)`. -/
def propertyKinds : List String := ["skill", "miss", "stat"]

def isPropertyKind (name : String) : Bool := propertyKinds.contains name

/-- A name that a formula cannot use for a value of its own record. -/
def isReserved (name : String) : Bool := isPropertyKind name || (Builtin.ofSymbol? name).isSome

end TableFormula
