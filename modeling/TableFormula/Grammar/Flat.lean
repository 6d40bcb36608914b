import TableFormula.Grammar.Basic

/-! Which lists of tokens are formulas, whatever their operators bind. -/

namespace TableFormula

mutual

/-- A chain, or a conditional whose condition is one. -/
inductive FlatExpr : List Token → Prop where
  | chain {tokens : List Token} : FlatChain tokens → FlatExpr tokens
  | conditional {condition first second : List Token} :
      FlatChain condition → FlatExpr first → FlatExpr second →
      FlatExpr (condition ++ .symbol Conditional.symbol ::
        (first ++ .symbol Conditional.marker :: second))

/-- Operands with infix operators between them. -/
inductive FlatChain : List Token → Prop where
  | single {tokens : List Token} : FlatOperand tokens → FlatChain tokens
  | more {chain operand : List Token} (op : InfixOp) :
      FlatChain chain → FlatOperand operand →
      FlatChain (chain ++ .symbol op.symbol :: operand)

/-- A value, a call or a formula in parentheses, with any prefix operators. -/
inductive FlatOperand : List Token → Prop where
  | prefixed {tokens : List Token} (op : PrefixOp) :
      FlatOperand tokens → FlatOperand (.symbol op.symbol :: tokens)
  | number (digits : String) : FlatOperand [.number digits]
  | bare {name : String} : isReserved name = false → FlatOperand [.name name]
  | reference {kind : String} (name qualifier : String) :
      isPropertyKind kind = true →
      FlatOperand [.name kind, .symbol "(", .string name, .symbol ".", .name qualifier,
        .symbol ")"]
  | call {first second : List Token} (fn : Builtin) :
      FlatExpr first → FlatExpr second →
      FlatOperand (.name fn.symbol :: .symbol "(" ::
        (first ++ .symbol "," :: (second ++ [.symbol ")"])))
  | group {tokens : List Token} :
      FlatExpr tokens → FlatOperand (.symbol "(" :: (tokens ++ [.symbol ")"]))

end

end TableFormula
