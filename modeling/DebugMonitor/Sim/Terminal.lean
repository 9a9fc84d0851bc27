import DebugMonitor.Serial
import DebugMonitor.Stop

/-!
# A simulated terminal

The far end of the console when nobody sits there: what will be typed waits in a queue, what the
monitor sends is kept. Reading past the end of the queue stops the run.
-/

namespace DebugMonitor.Sim

/-- What waits to be typed, what was shown, and how often the output was flushed. -/
structure Terminal where
  typed : Bytes := []
  /-- The newest byte comes first. -/
  shown : Bytes := []
  flushes : Nat := 0
  deriving DecidableEq

namespace Terminal

def type (terminal : Terminal) (bytes : Bytes) : Terminal :=
  { terminal with typed := terminal.typed ++ bytes }

/-- What was sent, in order. -/
def output (terminal : Terminal) : Bytes := terminal.shown.reverse

/-- Every byte that is received was typed, in order. -/
def answer : (request : Serial.Request) → EStateM Stop Terminal request.Answer
  | .receive => do
    let terminal ← get
    match terminal.typed with
    | byte :: rest => do
      set { terminal with typed := rest }
      return byte
    | [] => throw .inputExhausted
  | .send byte => modify fun terminal => { terminal with shown := byte :: terminal.shown }
  | .flush => modify fun terminal => { terminal with flushes := terminal.flushes + 1 }

def serial : Handler Serial (EStateM Stop Terminal) := answer

end Terminal

end DebugMonitor.Sim
