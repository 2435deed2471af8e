import Reckoner.Calculation
import Reckoner.Session.LogLevel

/-!
# Sessions

A session answers one typed line after the other. No line depends on those before, so a session is
the answers to its lines, in order. A line of white space has no answer; any other is answered by
its value or by the first failure. Notices of ignored tokens go to the log.
-/

namespace Reckoner

/-- What a session writes after a line: to the screen and to the log. -/
structure Answer where
  screen : String
  log : String
deriving DecidableEq

namespace Session

/-- The line of the log for a notice of the parser. -/
def logLine (notice : String) : String := "DEBUG calculator.parser: " ++ notice ++ "\n"

/-- The log of a parse, at a level. -/
def logOf (level : LogLevel) (parsed : Parsed) : String :=
  match parsed.notice? with
  | some notice => if level.showsDebug then logLine notice else ""
  | none => ""

/-- The answer to a line. -/
def answer (level : LogLevel) (line : String) : Answer :=
  if line.toList.all Unicode.isSpace then ⟨"", ""⟩
  else
    match Token.scan line with
    | .error e => ⟨e.message ++ "\n", ""⟩
    | .ok ts =>
      match Expr.parse ts with
      | .error e => ⟨e.message ++ "\n", ""⟩
      | .ok parsed =>
        match parsed.expr.evaluate with
        | .error e => ⟨e.message ++ "\n", logOf level parsed⟩
        | .ok value => ⟨value.render .full ++ "\n", logOf level parsed⟩

/-- The answers to the lines of a session. -/
def answers (level : LogLevel) (lines : List String) : List Answer := lines.map (answer level)

/-- The level of a session that names none. -/
def defaultLevel : LogLevel := .warning

end Session

end Reckoner
