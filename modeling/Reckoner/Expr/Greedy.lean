import Reckoner.Expr.Basic

/-!
# Greedy trees

Each tier of the grammar is used at most once, so that a tree that has used a tier is closed to the
operators of that tier: `e.closedTo op`. A tree is **greedy** when no negation in it is followed by
an operator that its inside could have taken.
-/

namespace Reckoner

namespace Operator

/-- An operator of the upper tier. -/
def isAdditive : Operator → Bool
  | add | sub => true
  | _ => false

/-- An operator of the middle tier. -/
def isMultiplicative : Operator → Bool
  | mul | div | mod => true
  | _ => false

end Operator

namespace Expr

/-- The root applies an operator of the upper tier. -/
def isSum : Expr → Bool
  | binary _ op _ => op.isAdditive
  | _ => false

/-- The root applies an operator of the middle tier. -/
def isProduct : Expr → Bool
  | binary _ op _ => op.isMultiplicative
  | _ => false

/-- The last operand of the upper tier: that of a sum on the right, else the tree itself. -/
def lastSummand : Expr → Expr
  | binary l op r => if op.isAdditive then r else binary l op r
  | e => e

/-- The tree, read to its end, has no room for the operator: a sum for those of the upper tier, and
a product in the last place for those of the middle tier. There is always room for a power. -/
def closedTo (e : Expr) (op : Operator) : Bool :=
  (op.isAdditive && e.isSum) || (op.isMultiplicative && e.lastSummand.isProduct)

/-- Every negation is closed to the operator that follows it. `next` is the operator that follows
the tree itself. -/
def Greedy : Option Operator → Expr → Prop
  | _, num _ => True
  | next, binary l op r => Greedy (some op) l ∧ Greedy next r
  | _, group inner => Greedy none inner
  | next, neg inner => Greedy next inner ∧ next.all inner.closedTo = true
  | _, foreign _ => True

end Expr

end Reckoner
