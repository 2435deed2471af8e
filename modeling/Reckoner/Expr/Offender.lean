import Reckoner.Expr.Eval

/-!
# Offenders: what a tree holds that no walk can pass

An offender is a foreign leaf or an operator without a meaning. The two lists hold the offenders of
a tree in the two orders in which walks meet them: operands before the operator, and the operator
before its operands.
-/

namespace Reckoner

/-- The complaint about an operator without a meaning. -/
def Operator.offences (op : Operator) : List EvalError :=
  match op with
  | .unknown name => [.unknownOperator name]
  | _ => []

namespace Expr

/-- The offenders, each operator after its operands. -/
def offencesAfter : Expr → List EvalError
  | num _ => []
  | binary l op r => l.offencesAfter ++ r.offencesAfter ++ op.offences
  | group inner => inner.offencesAfter
  | neg inner => inner.offencesAfter
  | foreign typeName => [.unexpectedType typeName]

/-- The offenders, each operator before its operands. -/
def offencesBefore : Expr → List EvalError
  | num _ => []
  | binary l op r => op.offences ++ (l.offencesBefore ++ r.offencesBefore)
  | group inner => inner.offencesBefore
  | neg inner => inner.offencesBefore
  | foreign typeName => [.unexpectedType typeName]

/-- The orders hold the same offenders. -/
theorem offencesBefore_perm (e : Expr) : e.offencesBefore.Perm e.offencesAfter := by
  induction e with
  | num | foreign => exact .refl _
  | group _ ih | neg _ ih => exact ih
  | binary l op r ihl ihr =>
    exact List.perm_append_comm.trans ((ihl.append ihr).append_right _)

end Expr

end Reckoner
