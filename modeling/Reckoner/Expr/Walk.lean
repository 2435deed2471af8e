import Reckoner.Expr.Parse

/-!
# The walk of the parser, without a limit

The same grammar as in `Expr.parse`, read with no limit on depth but with a record of the greatest
depth reached. A bracket and a unary minus count eight while they are open, the right operand of a
power two, and the depth is noted on entering, before the tokens ahead are looked at.

Every step down takes at least one token, so the number of tokens bounds the steps.
-/

namespace Reckoner

/-- The greatest depth that a walk reaches before it ends, and how it ends. -/
structure Walk (α : Type) where
  peak : Nat
  result : Except (Fault × List Token) α

namespace Walk

variable {α β : Type}

/-- A walk that stays where it is, at a depth. -/
def ofResult (depth : Nat) (result : Except (Fault × List Token) α) : Walk α := ⟨depth, result⟩

/-- One walk after another. -/
def andThen (w : Walk α) (next : α → Walk β) : Walk β :=
  match w.result with
  | .error e => ⟨w.peak, .error e⟩
  | .ok a => ⟨max w.peak (next a).peak, (next a).result⟩

/-- What a part of the grammar reads, from a given depth. -/
abbrev Part := Nat → List Token → Walk (Expr × List Token)

/-- An operand has to follow `op`. -/
def operandFault? (op : Operator) : List Token → Option Fault
  | [] => some (.missingOperand op none)
  | t :: _ => if Reader.startsOperand t.kind then none else some (.missingOperand op (some t.kind))

/-- `left`, and if an operator of the tier follows, that with `right`, which is `cost` deeper. -/
def tier (operator? : Token.Kind → Option Operator) (cost : Nat) (left right : Part) : Part :=
  fun depth ts => (left depth ts).andThen fun (l, rest) =>
    match rest with
    | [] => ofResult depth (.ok (l, []))
    | t :: after =>
      match operator? t.kind with
      | none => ofResult depth (.ok (l, t :: after))
      | some op =>
        match operandFault? op after with
        | some fault => ofResult depth (.error (fault, after))
        | none =>
          (right (depth + cost) after).andThen fun (r, rest) =>
            ofResult depth (.ok (.binary l op r, rest))

/-- A number, a negation, or a tree in brackets. -/
def leaf (nested : Part) : Part
  | depth, [] => ofResult depth (.error (.operandExpected none, []))
  | depth, t :: ts =>
    match t.kind with
    | .number =>
      match Numeral.read? t.text with
      | some value => ofResult depth (.ok (.num value, ts))
      | none => ofResult depth (.error (.malformedNumber t.text, t :: ts))
    | .minus =>
      (nested (depth + 8) ts).andThen fun (inner, rest) => ofResult depth (.ok (.neg inner, rest))
    | .leftParen =>
      (nested (depth + 8) ts).andThen fun (inner, rest) =>
        match rest with
        | [] => ofResult depth (.error (.unclosedBracket, []))
        | u :: rest =>
          if u.kind = .rightParen then ofResult depth (.ok (.group inner, rest))
          else ofResult depth (.error (.unclosedBracket, u :: rest))
    | kind => ofResult depth (.error (.operandExpected (some kind), t :: ts))

/-- The two upper tiers over the lowest. -/
def expressionOf (power : Part) : Part :=
  let multiplicative := tier Operator.multiplicative? 0 power power
  tier Operator.additive? 0 multiplicative multiplicative

/-- The lowest tier, with so many steps down. -/
def power : Nat → Part
  | 0, depth, ts => ofResult depth (.error (.operandExpected none, ts))
  | steps + 1, depth, ts =>
    tier Operator.power? 2 (leaf (expressionOf (power steps))) (power steps) depth ts

/-- The walk over a list of tokens. -/
def ofTokens (ts : List Token) : Walk (Expr × List Token) :=
  expressionOf (power (ts.length + 1)) 0 ts

end Walk

end Reckoner
