import DebugMonitor.Bench.Probe
import DebugMonitor.Console.Monitor
import DebugMonitor.Interrupt

/-!
# Setting up a bench

A bench is a rig with a monitor on it, a set of interrupt latches, and at most one bulk session of
its own. Setting it up prepares the chip, detects it unless a configuration is given, and picks the
console's channel.
-/

namespace DebugMonitor

namespace Bench

open Sim

/-- How the chip is prepared. What comes later in this list is done later. -/
structure Preparation where
  token : Option Bytes := none
  code : List (UInt32 × Bytes) := []
  cells : List (UInt32 × UInt8) := []
  registers : List (UInt8 × UInt8) := []
  page : UInt8 := 0
  locked : Option PowerGate := none
  uart : Option UInt32 := none

/-- A chip that was prepared, from its code to its UART. -/
def Preparation.chip (preparation : Preparation) : Chip :=
  let blank : Chip := match preparation.token with
    | some token => .withToken token
    | none => {}
  let loaded := preparation.code.foldl (fun chip load => chip.loadCode load.1 load.2) blank
  let poked := preparation.cells.foldl (fun chip cell => chip.poke cell.1 cell.2) loaded
  let primed := preparation.registers.foldl (fun chip cell => chip.setRegister cell.1 cell.2) poked
  { primed with
    page := preparation.page
    locked := preparation.locked
    uart := preparation.uart.map fun base => { base } }

structure Setup where
  preparation : Preparation := {}
  probe : Probe := {}
  config : Option Config := none
  onUart : Bool := false
  build : Build

inductive Setup.Failure where
  | noUart
  | stopped (stop : Stop)
  deriving DecidableEq, Repr

end Bench

/-- Everything a session goes on with from step to step. -/
structure Bench where
  rig : Bench.Rig
  monitor : Monitor
  channel : Bench.Rig.Channel
  bulk : Option Bulk.Session := none
  latches : Interrupt.Latches := {}

namespace Bench

/-- The channel that a configuration allows for, if a UART is asked for or not. -/
def Setup.channel? (setup : Setup) (config : Config) : Option Rig.Channel :=
  if setup.onUart then config.uartBase.map .uart else some .terminal

/-- The bench, its log being that of the setup. No wait on it can outlast the budget. -/
def Setup.bench (setup : Setup) : Except Setup.Failure Bench :=
  let rig : Rig := ⟨⟨setup.preparation.chip, {}, {}⟩, setup.probe⟩
  let detected : EStateM.Result Stop Rig Config := match setup.config with
    | some config => .ok config rig
    | none => (Config.detect.handle Rig.bus).run rig
  match detected with
  | .error stop _ => .error (.stopped stop)
  | .ok config rig =>
    match setup.channel? config with
    | none => .error .noUart
    | some channel =>
      .ok { rig, channel, monitor := ⟨config, setup.build, setup.probe.budget + 1⟩ }

end Bench

end DebugMonitor
