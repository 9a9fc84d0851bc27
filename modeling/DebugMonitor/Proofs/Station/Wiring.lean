import DebugMonitor.Bench.Probe
import DebugMonitor.Proofs.Memory.Access

/-!
# How a station is wired

A station answers the requests of a console with its three parts. What goes to the memory is for the
chip alone, and a program that only the chip answers is run as on the chip by itself.

A console whose channel is the UART is no different from one at a terminal that never uses its
terminal: the driver is a program on the same memory, so every byte it moves can be written out as
accesses (`Uart.asAccesses`). What holds of all programs on a memory and a terminal therefore holds
of both wirings.
-/

namespace DebugMonitor

open Sim
open Bench.Rig (Channel)

variable {I : Interface} {α β : Type}

/-! ### The parts of a station -/

namespace Sim.Terminal

theorem serial_receive {terminal : Terminal} {byte : UInt8} {rest : Bytes}
    (h : terminal.typed = byte :: rest) :
    serial .receive terminal = .ok byte { terminal with typed := rest } := by
  obtain ⟨typed, shown, flushes⟩ := terminal
  obtain rfl : typed = byte :: rest := h
  rfl

theorem serial_receive_nil {terminal : Terminal} (h : terminal.typed = []) :
    serial .receive terminal = .error .inputExhausted terminal := by
  obtain ⟨typed, shown, flushes⟩ := terminal
  obtain rfl : typed = [] := h
  rfl

end Sim.Terminal

namespace Sim.Station

def withChip (station : Station) (chip : Chip) : Station := { station with chip }

def withTerminal (station : Station) (terminal : Terminal) : Station := { station with terminal }

def withEditor (station : Station) (editor : LineEditor) : Station := { station with editor }

theorem onChip_apply (run : EStateM Stop Chip α) (station : Station) :
    onChip run station = match run station.chip with
      | .ok a chip => .ok a (station.withChip chip)
      | .error stop chip => .error stop (station.withChip chip) := by
  cases hrun : run station.chip <;> simp [onChip, zoom, hrun, withChip]

theorem onTerminal_apply (run : EStateM Stop Terminal α) (station : Station) :
    onTerminal run station = match run station.terminal with
      | .ok a terminal => .ok a (station.withTerminal terminal)
      | .error stop terminal => .error stop (station.withTerminal terminal) := by
  cases hrun : run station.terminal <;> simp [onTerminal, zoom, hrun, withTerminal]

theorem onChip_bind (run : EStateM Stop Chip α) (next : α → EStateM Stop Chip β) :
    onChip (run >>= next) = (onChip run >>= fun a => onChip (next a)) := by
  funext station
  show onChip (EStateM.bind run next) station = EStateM.bind (onChip run) _ station
  rw [onChip_apply, EStateM.bind, EStateM.bind, onChip_apply]
  cases run station.chip with
  | ok a chip => exact (onChip_apply (next a) (station.withChip chip)).symm
  | error stop chip => rfl

/-- What only the chip answers is run on the chip. -/
theorem handle_onChip (h : Handler I (EStateM Stop Chip)) (p : Program I α) :
    p.handle (fun request => onChip (h request)) = onChip (p.handle h) := by
  induction p with
  | done a => rfl
  | stalled => rfl
  | call request next ih =>
    show (onChip (h request) >>= fun answer => (next answer).handle _) = _
    simp only [ih]
    exact (onChip_bind _ _).symm

/-- A program on the bus runs on the chip alone. -/
theorem handle_bus (p : Program Bus α) : p.handle bus = onChip (p.handle Chip.bus) :=
  handle_onChip Chip.bus p

variable {layout : Layout} {serial : Handler Serial (EStateM Stop Station)}

theorem console_memory (request : Memory.Request) :
    console layout serial (.memory request) = onChip (Chip.memory layout request) :=
  handle_bus (layout.access request)

/-- A program on the memory, run by the console. -/
theorem handle_memory (p : Program Memory α) :
    (Console.memory p).handle (console layout serial) = onChip (p.handle (Chip.memory layout)) := by
  rw [Console.memory, Program.handle_handle, ← handle_onChip]
  congr 1
  funext request
  rw [Console.ask, Program.handle_ask, console_memory]

/-! ### Channels -/

/-- The console's channel, wherever it leads to. -/
def channel (layout : Layout) (patience : Nat) : Channel → Handler Serial (EStateM Stop Station)
  | .terminal => direct
  | .uart base => uart layout base patience

end Sim.Station

/-- A console whose bytes are moved by the UART driver, with every access written out. -/
def Uart.asAccesses (base : UInt32) (patience : Nat) : Handler Console (Program Console)
  | .memory request => Console.ask (.memory request)
  | .serial request => Console.memory (Uart.channel base patience request)
  | .editor => Console.editor
  | .setEditor editor => Console.setEditor editor
  | .halt => Console.ask .halt

/-- The program with the channel's accesses written out, if it has any. -/
def Program.over (patience : Nat) : Channel → Program Console α → Program Console α
  | .terminal, p => p
  | .uart base, p => p.handle (Uart.asAccesses base patience)

namespace Sim.Station

variable {layout : Layout}

theorem handle_asAccesses (base : UInt32) (patience : Nat) (p : Program Console α) :
    (p.handle (Uart.asAccesses base patience)).handle (console layout direct) =
      p.handle (console layout (uart layout base patience)) := by
  rw [Program.handle_handle]
  congr 1
  funext request
  cases request with
  | memory request => exact Program.handle_ask _ _
  | serial request =>
    show (Console.memory _).handle _ = (layout.lower _).handle bus
    rw [handle_memory, handle_bus, Chip.handle_lower]
  | editor => exact Program.handle_ask _ _
  | setEditor editor => exact Program.handle_ask _ _
  | halt => exact Program.handle_ask _ _

/-- Every wiring comes down to the terminal's. -/
theorem handle_over (patience : Nat) (wiring : Channel) (p : Program Console α) :
    (p.over patience wiring).handle (console layout direct) =
      p.handle (console layout (channel layout patience wiring)) := by
  cases wiring with
  | terminal => rfl
  | uart base => exact handle_asAccesses base patience p

end Sim.Station

end DebugMonitor
