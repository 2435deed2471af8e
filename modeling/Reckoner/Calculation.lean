import Reckoner.Expr.Describe
import Reckoner.Expr.Parse
import Reckoner.Token.Scan

/-!
# Calculations

From tokens or from a text to the result, with the first failure on the way.
-/

namespace Reckoner

/-- Why there is no result. -/
inductive Failure where
  | scan (e : Token.ScanError)
  | parse (e : ParseError)
  | eval (e : EvalError)
deriving DecidableEq

def Failure.message : Failure → String
  | scan e => e.message
  | parse e => e.message
  | eval e => e.message

/-- The value of the expression that the tokens start with. -/
def calculate (ts : List Token) : Except Failure Binary64 := do
  let parsed ← (Expr.parse ts).mapError .parse
  parsed.expr.evaluate.mapError .eval

/-- All that can be shown of a text that is an expression. -/
structure Report where
  line : String
  description : String
  value : Binary64
  notice? : Option String

/-- The report on a text. -/
def report (text : String) : Except Failure Report := do
  let ts ← (Token.scan text).mapError .scan
  let parsed ← (Expr.parse ts).mapError .parse
  let description ← parsed.expr.describe.mapError .eval
  let value ← parsed.expr.evaluate.mapError .eval
  return ⟨Token.line ts, description, value, parsed.notice?⟩

end Reckoner
