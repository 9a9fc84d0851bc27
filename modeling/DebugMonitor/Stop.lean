import DebugMonitor.Program
import DebugMonitor.Text.Basic

/-!
# Stops

A run that is stopped keeps its state: the machine stands as the stop left it, and other programs
can go on from there. So programs run in `EStateM Stop σ`, whose failures carry the state along.
-/

namespace DebugMonitor

/-- Why a run does not go on. -/
inductive Stop where
  | halted
  | inputExhausted
  | budgetExhausted
  | stalled
  deriving DecidableEq, Repr

/-- What is said about a stop where somebody wants to know. -/
def Stop.message : Stop → Text
  | halted => "simulated chip halted"
  | inputExhausted => "scripted serial input exhausted"
  | budgetExhausted => "call budget exhausted"
  | stalled => "wait given up"

instance {σ : Type} : Stalls (EStateM Stop σ) where
  stall := throw .stalled

instance {σ : Type} : LawfulStalls (EStateM Stop σ) where
  stall_bind _ := rfl

/-- Runs on a part of the state. Taking the part out leaves a state that waits for a new one, and
gets it also when the run stops. -/
def zoom {ε σ τ α : Type} (takeOut : σ → τ × (τ → σ)) (run : EStateM ε τ α) : EStateM ε σ α :=
  fun s =>
    let (part, putBack) := takeOut s
    match run part with
    | .ok a part => .ok a (putBack part)
    | .error e part => .error e (putBack part)

end DebugMonitor
