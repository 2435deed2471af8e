import Reckoner.Session.Basic

/-!
# The tour

Twenty lines that show what can be typed. Each is shown through all its stages: the tokens, the
tree, the result, or the first failure.
-/

namespace Reckoner

namespace Tour

/-- The lines of the tour. -/
def lines : List String := [
  "5", "-1", "1 + 1", "-1 + 1", "1 + -1", "4 + 6 * 3", "2 * 3 + 1", "1 + 2 + 3", "(4 + 6)",
  "(4+6) * 3", "7 % 3", "-7 % 3", "5^2", "2^3^2", "5 / 0", "0 / 0", "(1 + 2", "+1", "1 +", "2 $ 2"]

/-- The line of the screen that shows the outcome of a walk under a title. -/
def shown (title : String) : Except EvalError String → String
  | .ok text => title ++ ": " ++ text ++ "\n"
  | .error e => e.message ++ "\n"

/-- What is shown of tokens, from the tree on. -/
def showTokens (ts : List Token) : Answer :=
  match Expr.parse ts with
  | .error e => ⟨e.message ++ "\n", ""⟩
  | .ok parsed =>
    ⟨shown "ast" parsed.expr.describe ++
      shown "result" (parsed.expr.evaluate.map (Binary64.render .full)),
      Session.logOf .debug parsed⟩

/-- What is shown of one line. -/
def showLine (line : String) : Answer :=
  let title := "==========\ncode: " ++ Text.quoted line ++ "\n"
  match Token.scan line with
  | .error e => ⟨title ++ e.message ++ "\n", ""⟩
  | .ok ts =>
    let rest := showTokens ts
    ⟨title ++ "tokens: " ++ " ".intercalate (ts.map Token.tagged) ++ "\n" ++ rest.screen, rest.log⟩

/-- The whole tour. -/
def whole : Answer :=
  let shown := lines.map showLine
  ⟨String.join (shown.map Answer.screen), String.join (shown.map Answer.log)⟩

end Tour

end Reckoner
