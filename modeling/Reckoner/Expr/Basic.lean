import Reckoner.Expr.Operator

/-!
# Expression trees

A tree keeps the brackets of the input as `group`, so that it can be described as it was typed.
-/

namespace Reckoner

/-- An arithmetic expression. A `foreign` leaf stands for a value that is no expression, of which
only the name of its type is known. -/
inductive Expr where
  | num (value : Binary64)
  | binary (left : Expr) (op : Operator) (right : Expr)
  | group (inner : Expr)
  | neg (inner : Expr)
  | foreign (typeName : String)
deriving DecidableEq

namespace Expr

/-- The number of levels of the tree. -/
def height : Expr → Nat
  | num _ => 1
  | binary left _ right => max left.height right.height + 1
  | group inner => inner.height + 1
  | neg inner => inner.height + 1
  | foreign _ => 1

/-- The levels that a walk through a tree goes down, and the depth that a parse goes into. -/
def depthLimit : Nat := 970

end Expr

end Reckoner
