import DebugMonitor.Numeral
import DebugMonitor.Sim.Station

/-!
# The probe

A probe sits between the monitor and a simulated chip. It can log every call on the bus, it can
answer loads from a script before the chip is asked, and it meters calls: each bus cycle and each
byte through the console's channel costs one, and a call that would exceed the budget stops the run
before it acts. Halting and flushing cost nothing.
-/

namespace DebugMonitor.Bench

open Sim

/-- One call on the bus. -/
inductive Entry where
  | call (request : Bus.Request) (answer : request.Answer)
  | halt

/-- What the probe was told to do, and what it has seen. -/
structure Probe where
  tracing : Bool := false
  log : Array Entry := #[]
  /-- The answers to come, by physical address. -/
  script : Std.TreeMap Nat Bytes := ∅
  budget : Nat := 20000
  spent : Nat := 0

/-- A station with a probe on its bus. -/
structure Rig where
  station : Station
  probe : Probe

/-! ### Log lines

Numbers are decimal; an answer comes last. -/

def Entry.line : Entry → Text
  | call .page answer => "page " ++ byte answer
  | call (.setPage page) _ => "set_page " ++ byte page
  | call (.load offset) answer => "load " ++ number offset.toNat ++ " " ++ byte answer
  | call (.store offset value) _ => "store " ++ number offset.toNat ++ " " ++ byte value
  | call (.code offset) answer => "code " ++ number offset.toNat ++ " " ++ byte answer
  | call (.register index) answer => "get " ++ byte index ++ " " ++ byte answer
  | call (.setRegister index value) _ => "set " ++ byte index ++ " " ++ byte value
  | call .halt never => nomatch never
  | halt => "halt"
where
  number (n : Nat) : Text := Numeral.padded 10 1 n
  byte (b : UInt8) : Text := number b.toNat

namespace Probe

/-- Charges for one call, if the budget allows for it. -/
def charge (probe : Probe) : Option Probe :=
  if probe.spent < probe.budget then some { probe with spent := probe.spent + 1 } else none

/-- Logs a call, if calls are logged. -/
def note (probe : Probe) (entry : Entry) : Probe :=
  if probe.tracing then { probe with log := probe.log.push entry } else probe

/-- The next scripted answer of an address. -/
def scripted (probe : Probe) (address : UInt32) : Option (UInt8 × Probe) :=
  match probe.script.getD address.toNat [] with
  | [] => none
  | b :: rest => some (b, { probe with script := probe.script.insert address.toNat rest })

/-- Meters afresh, with an empty log. -/
def reset (probe : Probe) : Probe := { probe with log := #[], spent := 0 }

end Probe

namespace Rig

def onStation {α : Type} (run : EStateM Stop Station α) : EStateM Stop Rig α :=
  zoom (fun ⟨station, probe⟩ => (station, (⟨·, probe⟩))) run

def charge : EStateM Stop Rig Unit := do
  let rig ← get
  match rig.probe.charge with
  | some probe => set { rig with probe }
  | none => throw .budgetExhausted

def note (entry : Entry) : EStateM Stop Rig Unit :=
  modify fun rig => { rig with probe := rig.probe.note entry }

def ask (request : Bus.Request) : EStateM Stop Rig request.Answer := onStation (Station.bus request)

/-- A load, answered from the script if that has an answer left. -/
def load (offset : UInt16) : EStateM Stop Rig UInt8 := do
  let rig ← get
  match rig.probe.scripted (rig.station.chip.physical offset) with
  | some (b, probe) =>
    set { rig with probe }
    return b
  | none => ask (.load offset)

/-- Loads may be answered from the script, and everything else by the chip. -/
def answer : (request : Bus.Request) → EStateM Stop Rig request.Answer
  | .load offset => load offset
  | request => ask request

/-- Charges for a call before it acts, and logs it once it is answered. -/
def metered (request : Bus.Request) : EStateM Stop Rig request.Answer := do
  charge
  let reply ← answer request
  note (.call request reply)
  return reply

/-- The bus as it is seen through the probe. Halting is logged and free. -/
def bus : Handler Bus (EStateM Stop Rig)
  | .halt => do
    note .halt
    ask .halt
  | request => metered request

/-! ### Channels -/

/-- The console's channel: the terminal, or the UART at an address. -/
inductive Channel where
  | terminal
  | uart (base : UInt32)
  deriving DecidableEq, Repr

def serialOn (layout : Layout) (patience : Nat) : Channel → Handler Serial (EStateM Stop Rig)
  | .terminal => fun request => onStation (Station.direct request)
  | .uart base => Uart.handler layout bus base patience

/-- Every byte is metered. -/
def serial (layout : Layout) (patience : Nat) (channel : Channel) :
    Handler Serial (EStateM Stop Rig) := fun request => do
  if request ≠ .flush then charge
  serialOn layout patience channel request

def console (layout : Layout) (patience : Nat) (channel : Channel) :
    Handler Console (EStateM Stop Rig) :=
  Console.handler layout bus (serial layout patience channel) ((·.station.editor) <$> get)
    fun editor => modify fun rig => { rig with station := { rig.station with editor } }

end Rig

end DebugMonitor.Bench
