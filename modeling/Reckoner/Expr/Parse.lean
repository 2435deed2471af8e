import Reckoner.Decimal.Numeral
import Reckoner.Expr.Basic
import Reckoner.Expr.ParseError

/-!
# Parsing: from tokens to a tree

Each tier of the grammar applies at most one operator:

    expression     = multiplicative ((PLUS | MINUS) multiplicative)?
    multiplicative = power ((MULTIPLY | DIVIDE | MODULO) power)?
    power          = leaf (POWER power)?
    leaf           = MINUS expression | NUMBER | LEFT_PAREN expression RIGHT_PAREN

So `1 + 2 + 3` is read up to the second plus, and a minus takes all that an expression can take.
Tokens left over are no error; they are handed back as `ignored`.

A `Reader` takes the tokens still to be read and gives back a tree with the tokens after it. The
readers of the tiers are built from the reader of the tier below by `tier`, and only `power` is
recursive. Its argument is the depth that is left: a bracket and a unary minus take eight of it
while they are open, the right operand of a power two. The reader stops as soon as it lacks depth
to go on, before it looks at the tokens ahead.
-/

namespace Reckoner

/-- Why a reader stops: a fault, with the tokens from there on, or lack of depth. -/
inductive Halt where
  | fault (reason : Fault) (rest : List Token)
  | tooDeep

/-- A tree and the tokens after it, read from the start of the tokens. -/
abbrev Reader := List Token → Except Halt (Expr × List Token)

namespace Reader

/-- The kinds that an operand starts with. -/
def startsOperand : Token.Kind → Bool
  | .minus | .number | .leftParen => true
  | _ => false

/-- Whether an operand of `op` may come next. -/
def expectOperand (op : Operator) : List Token → Except Halt Unit
  | [] => .error (.fault (.missingOperand op none) [])
  | t :: ts =>
    if startsOperand t.kind then .ok ()
    else .error (.fault (.missingOperand op (some t.kind)) (t :: ts))

/-- What `left` reads, and if an operator of the tier follows, that with what `right` reads. -/
def tier (operator? : Token.Kind → Option Operator) (left right : Reader) : Reader := fun ts => do
  let (l, rest) ← left ts
  match rest with
  | [] => return (l, [])
  | t :: after =>
    match operator? t.kind with
    | none => return (l, t :: after)
    | some op =>
      expectOperand op after
      let (r, rest) ← right after
      return (.binary l op r, rest)

/-- The tree in brackets, if they are closed. -/
def closeBracket (inner : Expr) : Reader
  | [] => .error (.fault .unclosedBracket [])
  | t :: ts =>
    if t.kind = .rightParen then .ok (.group inner, ts)
    else .error (.fault .unclosedBracket (t :: ts))

/-- A number, or a tree that `nested` reads after a minus or in brackets. -/
def leaf (nested : Reader) : Reader
  | [] => .error (.fault (.operandExpected none) [])
  | t :: ts =>
    match t.kind with
    | .number =>
      match Numeral.read? t.text with
      | some value => .ok (.num value, ts)
      | none => .error (.fault (.malformedNumber t.text) (t :: ts))
    | .minus => do
      let (inner, rest) ← nested ts
      return (.neg inner, rest)
    | .leftParen => do
      let (inner, rest) ← nested ts
      closeBracket inner rest
    | kind => .error (.fault (.operandExpected (some kind)) (t :: ts))

/-- No depth is left to read anything. -/
def tooDeep : Reader := fun _ => .error .tooDeep

/-- The two upper tiers over a reader of powers. -/
def expressionOf (power : Reader) : Reader :=
  let multiplicative := tier Operator.multiplicative? power power
  tier Operator.additive? multiplicative multiplicative

/-- The lowest tier, with the given depth left. -/
def power : Nat → Reader
  | depth + 8, ts =>
    tier Operator.power? (leaf (expressionOf (power depth))) (power (depth + 6)) ts
  | depth + 2, ts => tier Operator.power? (leaf tooDeep) (power depth) ts
  | _, ts => tier Operator.power? (leaf tooDeep) tooDeep ts

/-- A whole expression, with the given depth left. -/
def expression (depth : Nat) : Reader := expressionOf (power depth)

/-- What `reader` reads with `cost` less of depth. -/
def deeper (cost : Nat) (reader : Nat → Reader) (depth : Nat) : Reader :=
  if cost ≤ depth then reader (depth - cost) else tooDeep

/-- The costs of depth: eight for brackets and minus, two for the right operand of a power. -/
theorem power_eq (depth : Nat) (ts : List Token) :
    power depth ts =
      tier Operator.power? (leaf (deeper 8 expression depth)) (deeper 2 power depth) ts := by
  fun_cases power depth ts
  · simp [deeper, expression]
  · rename_i d h
    have h8 : ¬8 ≤ d + 2 := fun h' => h (d + 2 - 8) (by omega)
    simp [deeper, h8]
  · rename_i h8 h2
    have h8 : ¬8 ≤ depth := fun h' => h8 (depth - 8) (by omega)
    have h2 : ¬2 ≤ depth := fun h' => h2 (depth - 2) (by omega)
    simp [deeper, h8, h2]

end Reader

/-- A tree and the tokens that were left over. -/
structure Parsed where
  expr : Expr
  ignored : List Token
deriving DecidableEq

/-- What is said of the tokens left over, if there are any. -/
def Parsed.notice? (p : Parsed) : Option String :=
  if p.ignored.isEmpty then none
  else some ("Ignoring unconsumed tokens: " ++ Token.line p.ignored)

namespace Expr

/-- The tree that the tokens start with, read with the given depth. -/
def parseWithin (depth : Nat) (ts : List Token) : Except ParseError Parsed :=
  match Reader.expression depth ts with
  | .ok (e, rest) => .ok ⟨e, rest⟩
  | .error (.fault reason rest) => .error (.fault ts (ts.length - rest.length) reason)
  | .error .tooDeep => .error (.nestedTooDeeply ts)

/-- The tree that the tokens start with. -/
def parse (ts : List Token) : Except ParseError Parsed := parseWithin depthLimit ts

end Expr

end Reckoner
