import Reckoner.Session.Tour

/-!
# The command line

Without an argument, a session on standard input, with the log level of the environment; with the
argument `tour`, the tour.
-/

namespace Reckoner.CommandLine

/-- Write an answer, the log to standard error. -/
def write (a : Answer) : IO Unit := do
  (← IO.getStderr).putStr a.log
  let stdout ← IO.getStdout
  stdout.putStr a.screen
  stdout.flush

/-- Report an error that ends the program: its message, without a trace, and the exit code. -/
def abort (message : String) : IO UInt32 := do
  IO.eprintln message
  return 1

/-- Answer line after line. No line ends a session: it ends when another line is asked for and the
input has none, which is an error. -/
partial def converse (level : LogLevel) : IO UInt32 := do
  let stdout ← IO.getStdout
  stdout.putStr "> "
  stdout.flush
  let line ← (← IO.getStdin).getLine
  if line.isEmpty then
    abort "EOF when reading a line"
  else
    write (Session.answer level (line.dropEndWhile (· == '\n')).toString)
    converse level

/-- The level that the environment names. -/
def level : IO (Except String LogLevel) := do
  match ← IO.getEnv "CALCULATOR_LOG_LEVEL" with
  | some name => return LogLevel.ofName name
  | none => return .ok Session.defaultLevel

/-- What the arguments ask for, and the exit code. -/
def run (args : List String) : IO UInt32 := do
  if args = ["tour"] then
    write Tour.whole
    return 0
  match ← level with
  | .ok level => converse level
  | .error message => abort message

end Reckoner.CommandLine

/-- The program. -/
def main (args : List String) : IO UInt32 := Reckoner.CommandLine.run args
