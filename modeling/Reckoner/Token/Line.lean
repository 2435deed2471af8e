import Reckoner.Text.Spacing
import Reckoner.Token.Basic

/-!
# Lines: tokens written out again

The texts of the tokens are joined by blanks. Brackets enclose their contents without blanks, and a
caret stands between its operands without blanks. The rules are applied to the line as a whole, so
they also hold inside a token's text.
-/

namespace Reckoner

namespace Token

/-- The line without blanks after opening brackets, before closing ones and around carets. -/
def tighten (cs : List Char) : List Char :=
  Text.tightenAround (· == '^') (Text.tightenBefore (· == ')') (Text.tightenAfter (· == '(') cs))

/-- The tokens on one line. -/
def line (ts : List Token) : String :=
  String.ofList (tighten ([' '].intercalate (ts.map (·.text.toList))))

end Token

end Reckoner
