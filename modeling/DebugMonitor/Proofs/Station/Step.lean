import DebugMonitor.Console.Monitor
import DebugMonitor.Proofs.Station.Wiring
import DebugMonitor.Proofs.Trace

/-!
# Using the monitor, step by step

What can be done with a station from outside, one step after another. Most steps are work for the
library: an access, a command, a byte for the bulk session or for a channel. The others prepare the
chip, look at it, or type something. A step that is stopped is abandoned where it is, and the next
one goes on from there; so a history has an entry for every step, whatever became of it.
-/

namespace DebugMonitor

def Console.Request.memory? : Console.Request → Option Memory.Request
  | .memory request => some request
  | .serial _ | .editor | .setEditor _ | .halt => none

namespace Sim

open Bench.Rig (Channel)

/-- The monitor, where its channel leads to, and how long the UART driver waits. -/
structure Equipment where
  monitor : Monitor
  channel : Channel
  patience : Nat

def Equipment.layout (equipment : Equipment) : Layout := equipment.monitor.config.layout

/-- A station, and the bulk session that is held there from one byte to the next. -/
structure Site where
  station : Station
  session : Bulk.Session

/-- Work that the library does on the console's requests. -/
inductive Work where
  | access (access : Memory.Access)
  | setUpUart
  | readVersion
  | readClock
  | start
  | poll
  | execute (line : Text)
  | serve
  | feed (byte : UInt8)
  | serveBulk
  | serial (request : Serial.Request)
  | driver (base : UInt32) (request : Serial.Request)

/-- What is done to a station without the library. -/
inductive Device where
  | peek (address : UInt32)
  | poke (address : UInt32) (value : UInt8)
  | loadCode (offset : UInt32) (image : Bytes)
  | lock (band : PowerGate)
  | attachUart (base : UInt32)
  | pushUart (bytes : Bytes)
  | type (bytes : Bytes)

/-- A step of the equipment: work for the monitor, an act on the devices, or detection. -/
inductive Step where
  | work (work : Work)
  | detect
  | device (device : Device)

inductive Reply where
  | done
  | access (answer : Memory.Access.Answer)
  | version (version : Option UInt8)
  | clock (mhz : Option UInt32)
  | outcome (outcome : Except Failure Unit)
  | flow (flow : Bulk.Flow)
  | byte (byte : UInt8)
  | config (config : Config)

def Reply.ofSerial : (request : Serial.Request) → request.Answer → Reply
  | .receive, b => .byte b
  | .send _, _ | .flush, _ => .done

/-- The work as a program. It also returns the session that is held afterwards; a session that was
served to its end makes room for a fresh one. -/
def Work.program (equipment : Equipment) (session : Bulk.Session) :
    Work → Program Console (Reply × Bulk.Session)
  | .access request => do return (.access (← Console.memory request.program), session)
  | .setUpUart => do
    Console.memory equipment.monitor.config.setUpUart
    return (.done, session)
  | .readVersion => do
    return (.version (← Console.memory equipment.monitor.config.readVersion), session)
  | .readClock => do
    return (.clock (← Console.memory equipment.monitor.config.readClock), session)
  | .start => do
    equipment.monitor.start
    return (.done, session)
  | .poll => do
    equipment.monitor.poll
    return (.done, session)
  | .execute line => do return (.outcome (← equipment.monitor.execute line), session)
  | .serve => equipment.monitor.serve
  | .feed byte => do
    let (flow, session) ← session.feed byte
    return (.flow flow, session)
  | .serveBulk => do
    session.serve equipment.monitor.patience
    return (.done, .start equipment.monitor.config.layout)
  | .serial request => do
    return (.ofSerial request (← Console.ask (.serial request)), session)
  | .driver base request => do
    let answer ← Console.memory (Uart.channel base equipment.patience request)
    return (.ofSerial request answer, session)

def Device.act (station : Station) : Device → Reply × Station
  | .peek address => (.byte (station.chip.peek address), station)
  | .poke address value => (.done, station.withChip (station.chip.poke address value))
  | .loadCode offset image => (.done, station.withChip (station.chip.loadCode offset image))
  | .lock band => (.done, station.withChip (station.chip.lock band))
  | .attachUart base => (.done, station.withChip (station.chip.attachUart base))
  | .pushUart bytes => (.done, station.withChip (station.chip.pushUart bytes))
  | .type bytes => (.done, station.withTerminal (station.terminal.type bytes))

/-! ### What steps access -/

/-- The variant that a chip is taken for, by the token in its code. -/
def Chip.variant (chip : Chip) : Variant :=
  .ofToken <| (List.range Variant.tokenSize).map fun i =>
    chip.code.get (Variant.tokenOffset + i.toUInt32).toNat

def Chip.config (chip : Chip) : Config := .ofVariant chip.variant

/-- The bytes that work accesses, those for the channel included. -/
def Work.accesses (equipment : Equipment) (site : Site) (work : Work) : List Memory.Request :=
  let program := work.program equipment site.session
  let requests := (program.over equipment.patience equipment.channel).trace
    (Station.console equipment.layout Station.direct) site.station
  requests.filterMap Console.Request.memory?

namespace Step

/-- The layout of what a step accesses. Detection goes by the chip that it finds. -/
def layout (equipment : Equipment) (site : Site) : Step → Layout
  | work _ | device _ => equipment.layout
  | detect => site.station.chip.config.layout

/-- The bytes that a step accesses. -/
def accesses (equipment : Equipment) (site : Site) : Step → List Memory.Request
  | work task => task.accesses equipment site
  | detect =>
    let config := site.station.chip.config
    config.setUpUart.trace (Chip.memory config.layout) site.station.chip
  | device _ => []

end Step

/-! ### Performing steps -/

namespace Equipment

/-- The console as it is wired. -/
def console (equipment : Equipment) : Handler Console (EStateM Stop Station) :=
  Station.console equipment.layout
    (Station.channel equipment.layout equipment.patience equipment.channel)

def run (equipment : Equipment) (site : Site) :
    Step → EStateM.Result Stop Station (Reply × Bulk.Session)
  | .work work => (work.program equipment site.session).handle equipment.console site.station
  | .detect =>
    (Config.detect >>= fun config => pure (.config config, site.session)).handle Station.bus
      site.station
  | .device device =>
    let (reply, station) := device.act site.station
    .ok (reply, site.session) station

/-- How a step ends, and what it leaves behind. A session that is stopped stays as it was. -/
def perform (equipment : Equipment) (site : Site) (step : Step) : Except Stop Reply × Site :=
  match equipment.run site step with
  | .ok (reply, session) station => (.ok reply, ⟨station, session⟩)
  | .error stop station => (.error stop, ⟨station, site.session⟩)

end Equipment

structure Entry where
  step : Step
  before : Site
  outcome : Except Stop Reply
  after : Site

/-- The steps one after the other, each with what was before and after it. -/
def Equipment.history (equipment : Equipment) (site : Site) : List Step → List Entry
  | [] => []
  | step :: rest =>
    let (outcome, after) := equipment.perform site step
    ⟨step, site, outcome, after⟩ :: equipment.history after rest

theorem Equipment.history_cons (equipment : Equipment) (site : Site) (step : Step)
    (rest : List Step) :
    equipment.history site (step :: rest) =
      ⟨step, site, (equipment.perform site step).1, (equipment.perform site step).2⟩ ::
        equipment.history (equipment.perform site step).2 rest := rfl

end Sim

end DebugMonitor
