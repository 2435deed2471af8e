import Reckoner.Text.Quoted
import Reckoner.Unicode.Uppercase

/-!
# Log levels

The level of a session decides whether its debug notices are shown. Its name is taken in letters of
either case.
-/

namespace Reckoner

/-- How much a session logs, from the least to the most. -/
inductive LogLevel where
  | critical
  | error
  | warning
  | info
  | debug
  | notSet
deriving DecidableEq

namespace LogLevel

/-- The level of a name in capitals; two levels have a second name. -/
def ofCapitals? : String → Option LogLevel
  | "CRITICAL" | "FATAL" => some critical
  | "ERROR" => some error
  | "WARNING" | "WARN" => some warning
  | "INFO" => some info
  | "DEBUG" => some debug
  | "NOTSET" => some notSet
  | _ => none

/-- The level of a name, or a message about the name. -/
def ofName (name : String) : Except String LogLevel :=
  let capitals := Unicode.upper name
  match ofCapitals? capitals with
  | some level => .ok level
  | none => .error ("Unknown level: " ++ Text.quoted capitals)

/-- Whether debug notices are shown. -/
def showsDebug : LogLevel → Bool
  | debug | notSet => true
  | _ => false

end LogLevel

end Reckoner
