import DebugMonitor.Bench.Setup
import DebugMonitor.Text.Lossy

/-!
# Working on a bench

A step is one thing done to the bench from outside: an access, a command, bytes typed, a look at the
chip. A step that is stopped is abandoned where it is, and the next one finds everything as the stop
left it. The report of a step holds its reply, what the console sent meanwhile, and the bus log.
-/

namespace DebugMonitor

namespace Bench

open Sim

/-- Everything that can be done to a bench from outside. -/
inductive Step where
  | memory (request : Memory.Request)
  | readWord (address : UInt32)
  | writeWord (address value : UInt32)
  | halt
  | setUpUart
  | readVersion
  | readClock
  | readToken
  | start
  | push (bytes : Bytes)
  | poll
  | type (bytes : Bytes)
  | serve (bytes : Bytes)
  | execute (line : Text)
  | pending
  | serial (request : Serial.Request)
  | print (text : Text)
  | takeShown
  | bulkStart
  | bulkFeed (bytes : Bytes)
  | bulkServe (bytes : Bytes)
  | raise (line : Interrupt.Line)
  | isRaised (line : Interrupt.Line)
  | take (line : Interrupt.Line)
  | bus (request : Bus.Request)
  | peek (address : UInt32)
  | poke (address : UInt32) (value : UInt8)
  | register (index : UInt8)
  | loadCode (offset : UInt32) (image : Bytes)
  | lock (band : PowerGate)
  | attachUart (base : UInt32)
  | pushUart (bytes : Bytes)
  | uartPending
  | takeUart
  | look

inductive Reply where
  | nothing
  | number (n : Nat)
  | flag (b : Bool)
  | bytes (bytes : Bytes)
  | text (text : Text)
  | outcome (outcome : Except Failure Unit)
  | station (station : Station)

structure Report where
  reply : Except Stop Reply
  sent : Bytes
  log : Array Entry

/-- The reply that shows the answer of a bus call. -/
def Reply.ofBus : (request : Bus.Request) → request.Answer → Reply
  | .page, b | .load _, b | .code _, b | .register _, b => .number (UInt8.toNat b)
  | .setPage _, _ | .store _ _, _ | .setRegister _ _, _ => .nothing
  | .halt, never => nomatch never

def Reply.ofMemory : (request : Memory.Request) → request.Answer → Reply
  | .read _, b => .number (UInt8.toNat b)
  | .write _ _, _ => .nothing

def Reply.ofSerial : (request : Serial.Request) → request.Answer → Reply
  | .receive, b => .number (UInt8.toNat b)
  | .send _, _ | .flush, _ => .nothing

def Reply.ofOption : Option Nat → Reply
  | some n => .number n
  | none => .nothing

/-! ### Reaching into the bench -/

def chip (bench : Bench) : Chip := bench.rig.station.chip

def terminal (bench : Bench) : Terminal := bench.rig.station.terminal

def onRig {α : Type} (run : EStateM Stop Rig α) : EStateM Stop Bench α :=
  zoom (fun ⟨rig, monitor, channel, bulk, latches⟩ =>
    (rig, (⟨·, monitor, channel, bulk, latches⟩))) run

def onChip {α : Type} (change : Chip → α × Chip) : EStateM Stop Bench α :=
  onRig <| Rig.onStation <| Station.onChip <| modifyGet change

def changeChip (change : Chip → Chip) : EStateM Stop Bench Unit :=
  onChip fun chip => ((), change chip)

def onBus {α : Type} (program : Program Bus α) : EStateM Stop Bench α :=
  onRig (program.handle Rig.bus)

/-- Runs on the flat memory of the bench, in the layout of its chip. -/
def onMemory {α : Type} (program : Program Memory α) : EStateM Stop Bench α := do
  onBus ((← get).monitor.config.layout.lower program)

def onConsole {α : Type} (program : Program Console α) : EStateM Stop Bench α := do
  let bench ← get
  onRig <| program.handle <|
    Rig.console bench.monitor.config.layout bench.monitor.patience bench.channel

/-! ### Input and output -/

/-- How much of what was pushed has not been read. -/
def pending (bench : Bench) : Nat :=
  match bench.channel with
  | .terminal => bench.terminal.typed.length
  | .uart _ => bench.chip.uartPending

/-- Sends bytes to the monitor over its channel. -/
def push (bytes : Bytes) : EStateM Stop Bench Unit := do
  match (← get).channel with
  | .terminal => onRig <| Rig.onStation <| Station.onTerminal <| modify (·.type bytes)
  | .uart _ => changeChip (·.pushUart bytes)

def takeShown : EStateM Stop Bench Bytes :=
  onRig <| Rig.onStation <| Station.onTerminal <| modifyGet fun terminal =>
    (terminal.output, { terminal with shown := [] })

/-- What the console sent since `mark` bytes had been shown. A UART is drained. -/
def sentSince (bench : Bench) (mark : Nat) : Bytes × Bench :=
  match bench.channel with
  | .terminal => (bench.terminal.output.drop mark, bench)
  | .uart _ =>
    match onChip Chip.takeUart bench with
    | .ok sent bench => (sent, bench)
    | .error _ bench => ([], bench)

/-! ### Steps -/

/-- Polls while anything is pending, and counts the polls. -/
def pollPending (count : Nat) : Nat → EStateM Stop Bench Nat
  | 0 => throw .stalled
  | patience + 1 => do
    let bench ← get
    if bench.pending = 0 then return count
    onConsole bench.monitor.poll
    pollPending (count + 1) patience

/-- Feeds the bulk session. Each byte is marked by what it led to. -/
def feedBulk : Bytes → EStateM Stop Bench Text
  | [] => return []
  | byte :: rest => do
    let bench ← get
    let session := bench.bulk.getD (.start bench.monitor.config.layout)
    let (flow, session) ← onConsole (session.feed byte)
    modify ({ · with bulk := some session })
    let mark := if flow = .exit then 'x' else if session.isIdle then 'i' else '.'
    return mark :: (← feedBulk rest)

/-- Starts a session of its own on the bench, in the place of the one before. -/
def startBulk : EStateM Stop Bench Bool := do
  let session := Bulk.Session.start (← get).monitor.config.layout
  modify ({ · with bulk := some session })
  return session.isIdle

/-- A step with nothing to reply. -/
def silently (run : EStateM Stop Bench Unit) : EStateM Stop Bench Reply := do
  run
  return .nothing

def perform : Step → EStateM Stop Bench Reply
  | .memory request => return .ofMemory request (← onMemory (Memory.ask request))
  | .readWord address => return .number (← onMemory (Memory.readWord address)).toNat
  | .writeWord address value => silently <| onMemory (Memory.writeWord address value)
  | .halt => do nomatch ← onBus (Bus.ask .halt)
  | .setUpUart => silently do onMemory (← get).monitor.config.setUpUart
  | .readVersion => do
    return .ofOption ((← onMemory (← get).monitor.config.readVersion).map UInt8.toNat)
  | .readClock => do
    return .ofOption ((← onMemory (← get).monitor.config.readClock).map UInt32.toNat)
  | .readToken => return .bytes (← onBus Variant.readToken)
  | .start => silently do onConsole (← get).monitor.start
  | .push bytes => silently <| push bytes
  | .poll => silently do onConsole (← get).monitor.poll
  | .type bytes => do
    push bytes
    return .number (← pollPending 0 (← get).monitor.patience)
  | .serve bytes => do
    push bytes
    onConsole (← get).monitor.serve
  | .execute line => do
    return .outcome (← onConsole ((← get).monitor.execute line))
  | .pending => return .number (← get).pending
  | .serial request => return .ofSerial request (← onConsole (Console.ask (.serial request)))
  | .print text => do
    onConsole (Console.say text)
    return .flag true
  | .takeShown => return .text (Text.ofUtf8 (← takeShown))
  | .bulkStart => return .flag (← startBulk)
  | .bulkFeed bytes => return .text (← feedBulk bytes)
  | .bulkServe bytes => do
    push bytes
    let monitor := (← get).monitor
    onConsole ((Bulk.Session.start monitor.config.layout).serve monitor.patience)
    return .number (← get).pending
  | .raise line => silently <| modify fun bench =>
    { bench with latches := bench.latches.raise line }
  | .isRaised line => return .flag ((← get).latches.isRaised line)
  | .take line => modifyGet fun bench =>
    let (raised, latches) := bench.latches.take line
    (.flag raised, { bench with latches })
  | .bus request => return .ofBus request (← onBus (Bus.ask request))
  | .peek address => return .number ((← get).chip.peek address).toNat
  | .poke address value => silently <| changeChip (·.poke address value)
  | .register index => return .number ((← get).chip.register index).toNat
  | .loadCode offset image => silently <| changeChip (·.loadCode offset image)
  | .lock band => silently <| changeChip (·.lock band)
  | .attachUart base => silently <| changeChip (·.attachUart base)
  | .pushUart bytes => silently <| changeChip (·.pushUart bytes)
  | .uartPending => return .number (← get).chip.uartPending
  | .takeUart => return .bytes (← onChip Chip.takeUart)
  | .look => return .station (← get).rig.station

/-- Performs a step on a fresh budget and reports on it. -/
def step (bench : Bench) (step : Step) : Report × Bench :=
  let mark := bench.terminal.shown.length
  let start := { bench with rig.probe := bench.rig.probe.reset }
  let (reply, bench) : Except Stop Reply × Bench := match perform step start with
    | .ok reply bench => (.ok reply, bench)
    | .error stop bench => (.error stop, bench)
  let (sent, bench) := bench.sentSince mark
  (⟨reply, sent, bench.rig.probe.log⟩, bench)

end Bench

end DebugMonitor
