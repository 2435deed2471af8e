import Reckoner.Decimal.Layout
import Reckoner.Expr.Eval

/-!
# Descriptions

A tree with all its brackets: those of the input with blanks inside, those that show the structure
without. A minus brackets its operand as the input would. The operator of a node is looked at
before its operands.
-/

namespace Reckoner

namespace Expr

/-- The symbol of an operator in a description. -/
def symbolOf (op : Operator) : Except EvalError Char :=
  match op.symbol? with
  | some c => .ok c
  | none => .error (.unknownOperator op.name)

/-- The description of a tree of at most so many levels. -/
def describeWithin : Nat → Expr → Except EvalError String
  | 0, _ => .error .nestedTooDeeply
  | _ + 1, num value => .ok (value.render .brief)
  | levels + 1, binary left op right => do
    let symbol ← symbolOf op
    let a ← describeWithin levels left
    let b ← describeWithin levels right
    return "(" ++ a ++ " " ++ String.singleton symbol ++ " " ++ b ++ ")"
  | levels + 1, group inner => do
    let a ← describeWithin levels inner
    return "( " ++ a ++ " )"
  | levels + 1, neg inner => do
    let a ← describeWithin levels inner
    return "- ( " ++ a ++ " )"
  | _ + 1, foreign typeName => .error (.unexpectedType typeName)

/-- The description of a tree. -/
def describe (e : Expr) : Except EvalError String := describeWithin depthLimit e

end Expr

end Reckoner
