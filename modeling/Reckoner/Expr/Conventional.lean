import Reckoner.Decimal.Numeral
import Reckoner.Expr.Basic

/-!
# Conventional precedence

The usual reading of an expression without unary minus: sums and products are chains of any number
of operators, each applied to all that comes before it, and a power takes the powers to its right.
Brackets and numbers are read as in `Expr.parse`, which allows one operator where a chain stands
here.

Every step but the first takes at least one token, so the number of tokens bounds the steps.
-/

namespace Reckoner

namespace Conventional

/-- A tree read from the start of the tokens, and the tokens after it. -/
abbrev Reading := List Token → Option (Expr × List Token)

/-- Operators of a tier with their right operands, each applied to what has been read. -/
def chainFrom (operator? : Token.Kind → Option Operator) (operand : Reading) :
    Nat → Expr → Reading
  | 0, _, _ => none
  | _ + 1, l, [] => some (l, [])
  | steps + 1, l, t :: ts =>
    match operator? t.kind with
    | none => some (l, t :: ts)
    | some op => do
      let (r, rest) ← operand ts
      chainFrom operator? operand steps (.binary l op r) rest

/-- A chain of operands of a tier. -/
def chain (operator? : Token.Kind → Option Operator) (operand : Reading) : Reading := fun ts => do
  let (l, rest) ← operand ts
  chainFrom operator? operand (ts.length + 1) l rest

/-- A number, or an expression in brackets. -/
def leaf (nested : Reading) : Reading
  | [] => none
  | t :: ts =>
    match t.kind with
    | .number => (Numeral.read? t.text).map fun value => (.num value, ts)
    | .leftParen =>
      match nested ts with
      | some (e, u :: rest) => if u.kind = .rightParen then some (.group e, rest) else none
      | _ => none
    | _ => none

/-- The two chains over a reading of powers. -/
def expressionOf (power : Reading) : Reading :=
  chain Operator.additive? (chain Operator.multiplicative? power)

/-- A power of leaves, with nesting down to the given level. -/
def power : Nat → Reading
  | 0, _ => none
  | levels + 1, ts =>
    match leaf (expressionOf (power levels)) ts with
    | some (l, t :: rest) =>
      if t.kind = .power then
        (power levels rest).map fun (r, rest) => (.binary l .pow r, rest)
      else some (l, t :: rest)
    | result => result

/-- The tree of the tokens, if all of them are one expression. -/
def parse? (ts : List Token) : Option Expr :=
  match expressionOf (power (ts.length + 1)) ts with
  | some (e, []) => some e
  | _ => none

end Conventional

end Reckoner
