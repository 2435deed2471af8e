import Reckoner.Binary64.Arithmetic
import Reckoner.Binary64.Power
import Reckoner.Token.Basic

/-!
# Operators

Six binary operators have a meaning and a symbol. A tree built by hand may also hold an operator of
any other name; `meaning?` and `symbol?` have nothing to say about it, and `isSome_meaning?` says
that they agree on which operators those are.
-/

namespace Reckoner

/-- A binary operator. -/
inductive Operator where
  | add
  | sub
  | mul
  | div
  | mod
  | pow
  | unknown (name : String)
deriving DecidableEq

namespace Operator

/-- The name in messages. -/
def name : Operator → String
  | add => "ADD"
  | sub => "SUB"
  | mul => "MUL"
  | div => "DIV"
  | mod => "MOD"
  | pow => "POW"
  | unknown name => name

/-- The operator of that name. -/
def ofName : String → Operator
  | "ADD" => add
  | "SUB" => sub
  | "MUL" => mul
  | "DIV" => div
  | "MOD" => mod
  | "POW" => pow
  | name => unknown name

/-- The symbol in descriptions. -/
def symbol? : Operator → Option Char
  | add => some '+'
  | sub => some '-'
  | mul => some '*'
  | div => some '/'
  | mod => some '%'
  | pow => some '^'
  | unknown _ => none

/-- What the operator computes. -/
def meaning? : Operator → Option (Binary64 → Binary64 → Binary64)
  | add => some (· + ·)
  | sub => some (· - ·)
  | mul => some (· * ·)
  | div => some (· / ·)
  | mod => some (· % ·)
  | pow => some Binary64.pow
  | unknown _ => none

/-- The same operators have a meaning and a symbol. -/
theorem isSome_meaning? (op : Operator) : op.meaning?.isSome = op.symbol?.isSome := by
  cases op <;> rfl

/-! ## The tiers of the grammar -/

/-- The operators that bind least. -/
def additive? : Token.Kind → Option Operator
  | .plus => some add
  | .minus => some sub
  | _ => none

def multiplicative? : Token.Kind → Option Operator
  | .multiply => some mul
  | .divide => some div
  | .modulo => some mod
  | _ => none

/-- The operator that binds most. -/
def power? : Token.Kind → Option Operator
  | .power => some pow
  | _ => none

end Operator

end Reckoner
