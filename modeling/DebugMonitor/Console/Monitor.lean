import DebugMonitor.Bulk.Session
import DebugMonitor.Chip.Config
import DebugMonitor.Console.Failure
import DebugMonitor.Console.Tokens
import DebugMonitor.Memory.Region

/-!
# The monitor

The console of a debug monitor that lives on the chip: it prompts for a line, runs the command on
it, reports what went wrong, and prompts again. Numbers are hexadecimal throughout. Its patience
bounds how many bytes it serves in one stretch, in bulk mode as well as in all.
-/

namespace DebugMonitor

/-- How the monitor introduces itself. -/
structure Build where
  version : Text
  time : Text
  deriving DecidableEq, Repr

/-- What the monitor knows of its chip and of itself, and how long it serves. -/
structure Monitor where
  config : Config
  build : Build
  patience : Nat
  deriving DecidableEq, Repr

namespace Monitor

/-! ### Arguments -/

/-- The flat memory of the console has 24-bit addresses. -/
def highestAddress : UInt32 := 0xffffff

def parseNumber (token : Text) : Except Failure UInt32 :=
  (Numeral.parse token).mapError .malformed

/-- Reads an address, which must not exceed the highest one. -/
def parseAddress (token : Text) : Except Failure UInt32 := do
  let address ← parseNumber token
  if highestAddress < address then throw .addressTooLarge
  return address

end Monitor

namespace Width

def digits : Width → Nat
  | byte => 2
  | word => 8

/-- Any number fits a word. -/
def parseValue (width : Width) (token : Text) : Except Failure UInt32 := do
  let value ← Monitor.parseNumber token
  if width = byte ∧ 0xff < value then throw .valueTooLarge
  return value

def read (width : Width) (address : UInt32) : Program Memory UInt32 :=
  match width with
  | byte => UInt8.toUInt32 <$> Memory.read address
  | word => Memory.readWord address

/-- Writes a byte or a word. Of the value for a byte only the low bits count. -/
def write (width : Width) (address value : UInt32) : Program Memory Unit :=
  match width with
  | byte => Memory.write address value.toUInt8
  | word => Memory.writeWord address value

end Width

namespace Monitor

/-! ### Texts -/

def prompt : Text := "> "

def greeting (build : Build) : Text :=
  "\nHello from monitor!\nmonitor version " ++ build.version ++ " (built on " ++ build.time ++ ")\n"

/-- The commands by name, in their order. -/
def helpText : Text :=
  "Commands available:\n" ++ Command.all.flatMap listed
where
  listed (command : Command) : Text := " - " ++ command.name ++ "\n"

/-- What the monitor and the chip are. Lines about what the chip cannot tell are left out. -/
def versionText (monitor : Monitor) (version : Option UInt8) (mhz : Option UInt32) : Text :=
  "Build version: " ++ monitor.build.version ++ "\n" ++
  "Build time: " ++ monitor.build.time ++ "\n" ++
  "Chip name: " ++ monitor.config.name ++ "\n" ++
  (match version with
    | some version => "Chip version: " ++ Numeral.hex version.toUInt32 2 ++ "\n"
    | none => []) ++
  (match mhz with
    | some mhz => "Clock speed: " ++ Numeral.decimal mhz 0 ++ " MHz\n"
    | none => [])

/-- The region of an address, and where in it the address lies. -/
def location (address : UInt32) : Text :=
  (Region.ofAddress address).name ++ " " ++ Numeral.hex (Region.offset address) 6

/-- The line that shows a value and where it was read. -/
def valueLine (width : Width) (address value : UInt32) : Text :=
  location address ++ ": " ++ Numeral.hex value width.digits ++ "\n"

def resetText (toRom : Bool) : Text :=
  "Resetting chip" ++ (if toRom then " to mask ROM" else "") ++ "...\n"

/-! ### Commands -/

open Console in
def showVersion (monitor : Monitor) : Program Console Unit := do
  let version ← memory monitor.config.readVersion
  let mhz ← memory monitor.config.readClock
  say (monitor.versionText version mhz)

open Console in
def showValue (width : Width) (address : UInt32) : Program Console Unit := do
  let value ← memory (width.read address)
  say (valueLine width address value)

open Console in
def changeValue (width : Width) (address value : UInt32) : Program Console Unit :=
  memory (width.write address value)

/-- Shows a value. Arguments past the address are ignored. -/
def readCommand (width : Width) (arguments : List Text) :
    ExceptT Failure (Program Console) Unit := do
  let token :: _ := arguments | throw (.tooFewArguments (.read width))
  let address ← parseAddress token
  showValue width address

/-- Shows the value before and after. The new value is looked at only when the old one is out. -/
def writeCommand (width : Width) (arguments : List Text) :
    ExceptT Failure (Program Console) Unit := do
  let addressToken :: valueToken :: _ := arguments | throw (.tooFewArguments (.write width))
  let address ← parseAddress addressToken
  showValue width address
  let value ← width.parseValue valueToken
  changeValue width address value
  showValue width address

/-- Where the next boot takes its code from, in the control block. -/
def nextModeRegister : UInt32 := 0

/-- Set to boot from code RAM; otherwise the mask ROM loads the code from flash. -/
def codeRamBit : UInt8 := 0x01

/-- The register of the control block that starts a reset. -/
def executionRegister : UInt32 := 2

def resetBit : UInt8 := 0x01

/-- Changes one bit of each register, the next boot mode first if that is asked for. -/
def requestReset (base : UInt32) (toRom : Bool) : Program Memory Unit := do
  if toRom then
    let mode ← Memory.read (base + nextModeRegister)
    Memory.write (base + nextModeRegister) (mode &&& ~~~codeRamBit)
  let execution ← Memory.read (base + executionRegister)
  Memory.write (base + executionRegister) (execution ||| resetBit)

open Console in
/-- Never returns. A chip without a control block is just halted. -/
def reset {α : Type} (monitor : Monitor) (toRom : Bool) : Program Console α := do
  say (resetText toRom)
  flush
  if let some base := monitor.config.controlBase then memory (requestReset base toRom)
  halt

/-- Announces bulk mode and serves it. -/
def serveBulk (monitor : Monitor) : Program Console Unit := do
  Console.say "OK\n"
  (Bulk.Session.start monitor.config.layout).serve monitor.patience

/-- Runs a command. Arguments that it does not take are ignored. -/
def run (monitor : Monitor) (command : Command) (arguments : List Text) :
    ExceptT Failure (Program Console) Unit :=
  match command with
  | .help => Console.say helpText
  | .version => monitor.showVersion
  | .read width => readCommand width arguments
  | .write width => writeCommand width arguments
  | .reset => monitor.reset (!arguments.isEmpty)
  | .bulk => monitor.serveBulk

/-! ### Lines -/

/-- Runs a command line and reports how it failed, if it did. A blank line does nothing. -/
def execute (monitor : Monitor) (line : Text) : Program Console (Except Failure Unit) :=
  match Console.tokens line with
  | [] => return .ok ()
  | name :: arguments => do
    let outcome ← match Command.ofName? name with
      | some command => (monitor.run command arguments).run
      | none => pure (.error (.unknownCommand name))
    if let .error failure := outcome then Console.say failure.report
    return outcome

def start (monitor : Monitor) : Program Console Unit :=
  Console.say (greeting monitor.build ++ prompt)

open Console in
/-- Waits for a byte and acts on it. A committed line is executed and followed by a prompt. -/
def poll (monitor : Monitor) : Program Console Unit := do
  let byte ← receive
  let reaction := (← editor).press byte
  setEditor reaction.meanwhile
  sendAll reaction.echo
  setEditor reaction.after
  if let some line := reaction.committed then
    discard <| monitor.execute (Text.ofBytes line)
    say prompt

/-- Polls again and again, for as long as the patience lasts. -/
def pollForever {α : Type} (monitor : Monitor) : Nat → Program Console α
  | 0 => .stalled
  | patience + 1 => do
    monitor.poll
    monitor.pollForever patience

/-- Greets and serves the console. Never returns. -/
def serve {α : Type} (monitor : Monitor) : Program Console α := do
  monitor.start
  monitor.pollForever monitor.patience

end Monitor

end DebugMonitor
