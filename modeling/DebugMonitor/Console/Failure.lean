import DebugMonitor.Console.Command
import DebugMonitor.Numeral

/-!
# Failed commands

The reasons for which a command line fails, and what the console prints about each.
-/

namespace DebugMonitor

/-- Why a command line fails. -/
inductive Failure where
  | malformed (numeral : Numeral.Malformed)
  | addressTooLarge
  | valueTooLarge
  | tooFewArguments (command : Command)
  | unknownCommand (name : Text)
  deriving DecidableEq, Repr

namespace Failure

/-- What the console says about a failure, after the word `Error`. -/
def message : Failure → Text
  | malformed numeral => numeral.message
  | addressTooLarge => "Address too large."
  | valueTooLarge => "Value too large."
  | tooFewArguments _ => "Too few arguments."
  | unknownCommand name => "Unknown command: " ++ name

/-- The lines about a failure: the message, and the usage where that helps. -/
def report (failure : Failure) : Text :=
  "Error: " ++ failure.message ++ "\n" ++
    match failure with
    | tooFewArguments command => command.usage ++ "\n"
    | _ => []

end Failure

end DebugMonitor
