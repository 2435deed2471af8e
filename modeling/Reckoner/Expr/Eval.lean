import Reckoner.Expr.Basic

/-!
# Evaluation

The value of a tree, left operands before right ones and operators after both. A walk goes down
`Expr.depthLimit` levels at most.
-/

namespace Reckoner

/-- Why a tree has no value or no description. -/
inductive EvalError where
  | unknownOperator (name : String)
  | unexpectedType (typeName : String)
  | nestedTooDeeply
deriving DecidableEq

def EvalError.message : EvalError → String
  | unknownOperator name => "Runtime error: Unexpected binary operator: " ++ name
  | unexpectedType typeName => "Runtime error: Unexpected expression type: " ++ typeName
  | nestedTooDeeply => "Runtime error: Expression nested too deeply"

/-- The operator applied to two numbers. -/
def Operator.apply (op : Operator) (a b : Binary64) : Except EvalError Binary64 :=
  match op.meaning? with
  | some f => .ok (f a b)
  | none => .error (.unknownOperator op.name)

namespace Expr

/-- The value of a tree of at most so many levels. -/
def evaluateWithin : Nat → Expr → Except EvalError Binary64
  | 0, _ => .error .nestedTooDeeply
  | _ + 1, num value => .ok value
  | levels + 1, binary left op right => do
    let a ← evaluateWithin levels left
    let b ← evaluateWithin levels right
    op.apply a b
  | levels + 1, group inner => evaluateWithin levels inner
  | levels + 1, neg inner => do
    let a ← evaluateWithin levels inner
    return -a
  | _ + 1, foreign typeName => .error (.unexpectedType typeName)

/-- The value of a tree. -/
def evaluate (e : Expr) : Except EvalError Binary64 := evaluateWithin depthLimit e

end Expr

end Reckoner
