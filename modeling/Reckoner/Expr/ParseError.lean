import Reckoner.Expr.Operator
import Reckoner.Text.Quoted
import Reckoner.Token.Line

/-!
# Parse errors

A `Fault` is what is wrong at one token, or at the end of the input. An error shows the tokens on
one line and a caret where the reading stopped.
-/

namespace Reckoner

/-- What is wrong at a token; `none` as the kind that was found stands for the end of the input. -/
inductive Fault where
  | missingOperand (op : Operator) (found : Option Token.Kind)
  | unclosedBracket
  | malformedNumber (text : String)
  | operandExpected (found : Option Token.Kind)
deriving DecidableEq

namespace Fault

/-- How messages name what was found. -/
def foundText : Option Token.Kind → String
  | none => "end of input"
  | some k => k.name

def text : Fault → String
  | missingOperand op found =>
    "Right operand of " ++ op.name ++ " expected, found " ++ foundText found
  | unclosedBracket => "Unclosed bracket"
  | malformedNumber text => "Malformed number " ++ Text.quoted text
  | operandExpected found => "Number or bracket expected, found " ++ foundText found

end Fault

/-- Why tokens are no expression. -/
inductive ParseError where
  | fault (tokens : List Token) (index : Nat) (reason : Fault)
  | nestedTooDeeply (tokens : List Token)
deriving DecidableEq

namespace ParseError

def tokens : ParseError → List Token
  | fault tokens _ _ => tokens
  | nestedTooDeeply tokens => tokens

/-- The index of the token at fault, the number of tokens for the end of the input. Nesting is the
fault of the whole and shown at its start. -/
def index : ParseError → Nat
  | fault _ index _ => index
  | nestedTooDeeply _ => 0

def text : ParseError → String
  | fault _ _ reason => reason.text
  | nestedTooDeeply _ => "Expression nested too deeply"

/-- The column of the caret: as wide as the tokens before it on a line of their own, with a blank
after them. -/
def column (e : ParseError) : Nat :=
  let before := e.tokens.take e.index
  (Token.line before).length + if before.isEmpty then 0 else 1

/-- What is wrong, the tokens, and the caret. -/
def message (e : ParseError) : String :=
  "Parser error: " ++ e.text ++ "\n" ++ Token.line e.tokens ++ "\n" ++
    Text.blanks e.column ++ "^"

end ParseError

end Reckoner
