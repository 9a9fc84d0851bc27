import DebugMonitor.Console.Basic
import DebugMonitor.Sim.Chip
import DebugMonitor.Sim.Terminal

/-!
# A simulated workplace

A simulated chip, a terminal beside it, and the line editor of the monitor that runs on the chip.
The console talks to the terminal directly, or through the chip's UART.
-/

namespace DebugMonitor.Sim

/-- The chip, the terminal and the editor, side by side. -/
structure Station where
  chip : Chip
  terminal : Terminal := {}
  editor : LineEditor := {}

namespace Station

def onChip {α : Type} (run : EStateM Stop Chip α) : EStateM Stop Station α :=
  zoom (fun ⟨chip, terminal, editor⟩ => (chip, (⟨·, terminal, editor⟩))) run

def onTerminal {α : Type} (run : EStateM Stop Terminal α) : EStateM Stop Station α :=
  zoom (fun ⟨chip, terminal, editor⟩ => (terminal, (⟨chip, ·, editor⟩))) run

def bus : Handler Bus (EStateM Stop Station) := fun request => onChip (Chip.bus request)

/-- The console's channel straight to the terminal. -/
def direct : Handler Serial (EStateM Stop Station) := fun request =>
  onTerminal (Terminal.serial request)

/-- The console's channel to the chip's UART. -/
def uart (layout : Layout) (base : UInt32) (patience : Nat) :
    Handler Serial (EStateM Stop Station) :=
  Uart.handler layout bus base patience

/-- Runs console programs on a station, over a channel of its own. -/
def console (layout : Layout) (serial : Handler Serial (EStateM Stop Station)) :
    Handler Console (EStateM Stop Station) :=
  Console.handler layout bus serial (editor <$> get) fun editor => modify ({ · with editor })

end Station

end DebugMonitor.Sim
