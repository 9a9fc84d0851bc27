/-!
# Interrupt latches

Each external interrupt line sets a latch of its own. The latch stays set, however often the line is
raised, until somebody takes the event.
-/

namespace DebugMonitor.Interrupt

inductive Line where
  | eint0
  | eint1
  deriving DecidableEq, Repr

/-- One latch for each line, set while an event is pending. -/
structure Latches where
  eint0 : Bool := false
  eint1 : Bool := false
  deriving DecidableEq, Repr

namespace Latches

def isRaised (latches : Latches) : Line → Bool
  | .eint0 => latches.eint0
  | .eint1 => latches.eint1

def set (latches : Latches) (raised : Bool) : Line → Latches
  | .eint0 => { latches with eint0 := raised }
  | .eint1 => { latches with eint1 := raised }

def raise (latches : Latches) (line : Line) : Latches := latches.set true line

/-- Whether an event was pending, and the latches without it. -/
def take (latches : Latches) (line : Line) : Bool × Latches :=
  (latches.isRaised line, latches.set false line)

end Latches

end DebugMonitor.Interrupt
