import DebugMonitor.Console.Monitor
import DebugMonitor.Files
import DebugMonitor.Sim.Station
import DebugMonitor.Text.Quoted

/-!
# The command line

The program runs the monitor on a simulated chip and connects its console to standard input and
output. The options say which chip: one by name, or whatever a code image makes of it. They also say
whether the console goes through the chip's UART. It ends when the input does, with code 0, when the
chip halts, with code 101, or with code 1 and a message when it cannot start.
-/

namespace DebugMonitor.CommandLine

open Sim

/-! ### Options -/

/-- The options as they were given. -/
structure Options where
  chip : Option Text := none
  image : Option Text := none
  uart : Bool := false
  deriving DecidableEq, Repr

def Options.setChip (options : Options) (name : Text) : Option Options :=
  if options.chip.isSome then none else some { options with chip := some name }

/-- A path is never empty. -/
def Options.setImage (options : Options) (path : Text) : Option Options :=
  if options.image.isSome ∨ path = [] then none else some { options with image := some path }

def Options.setUart (options : Options) : Option Options :=
  if options.uart then none else some { options with uart := true }

/-- A separate argument that can be the value of an option. -/
def isValue (argument : Text) : Bool := argument = ['-'] || argument.head? ≠ some '-'

/-- The text after `name=`. -/
def attached? (name argument : Text) : Option Text :=
  if (name ++ "=").isPrefixOf argument then some (argument.drop (name.length + 1)) else none

/-- Every option may be given once. Two hyphens end the options, and nothing may follow them. -/
def Options.parse (options : Options) : List Text → Option Options
  | [] => some options
  | argument :: rest =>
    if argument = "--uart" then do (← options.setUart).parse rest
    else if let some name := attached? "--chip" argument then do
      (← options.setChip name).parse rest
    else if let some path := attached? "--image" argument then do
      (← options.setImage path).parse rest
    else match rest with
      | [] => if argument = "--" then some options else none
      | value :: rest =>
        if !isValue value then none
        else if argument = "--chip" then do (← options.setChip value).parse rest
        else if argument = "--image" then do (← options.setImage value).parse rest
        else none

/-! ### Failures -/

inductive StartFailure where
  | unknownChip (name : Text)
  | unreadableImage (path : Text) (cause : FileFailure)
  | noUart
  deriving DecidableEq, Repr

def StartFailure.message : StartFailure → Text
  | unknownChip name => "unknown chip " ++ Text.quoted name
  | unreadableImage path cause =>
    "failed to read code image " ++ path ++ "\n\nCaused by:\n    " ++ cause.message
  | noUart => "chip has no UART to route the console through"

def StartFailure.report (failure : StartFailure) : Text := "Error: " ++ failure.message ++ "\n"

/-! ### Start-up -/

def defaultChip : Text := "ASM2142"

def build : Build := ⟨"0.1.0", "unknown"⟩

/-- A chip with the code of the image, or with the token of the chip that is named. -/
def Options.chipFrom {m : Type → Type} [Monad m] (options : Options)
    (readFile : Text → m (Except FileFailure Bytes)) : ExceptT StartFailure m Chip :=
  match options.image with
  | some path => do
    match ← readFile path with
    | .ok image => return .loadCode {} 0 image
    | .error cause => throw (.unreadableImage path cause)
  | none =>
    let name := options.chip.getD defaultChip
    match (Variant.ofName? name).bind Variant.token? with
    | some token => return .withToken token
    | none => throw (.unknownChip name)

/-- The configuration that the code of a chip asks for. -/
def configOf (chip : Chip) : Config :=
  match (Variant.readToken.handle Chip.bus).run chip with
  | .ok token _ => .ofVariant (Variant.ofToken token)
  | .error _ _ => .ofVariant .unknown

/-- The chip before its firmware starts. The UART has to be there by then. -/
def Options.power {m : Type → Type} [Monad m] (options : Options)
    (readFile : Text → m (Except FileFailure Bytes)) : ExceptT StartFailure m Chip := do
  let chip ← options.chipFrom readFile
  if options.uart then
    match (configOf chip).uartBase with
    | some base => return chip.attachUart base
    | none => throw .noUart
  else return chip

/-! ### Serving

The run is written for any monad that a simulated station can be run in and a terminal answered in:
the terminal of the station itself, or a real one. -/

section

variable {m : Type → Type} [Monad m] [Stalls m]

/-- A way to run on the station. -/
abbrev StationRunner (m : Type → Type) := {α : Type} → EStateM Stop Station α → m α

/-- Terminals send a line feed for Enter. -/
def enterKey (byte : UInt8) : UInt8 :=
  if byte = Text.lineFeed then Text.carriageReturn else byte

/-- A terminal whose Enter key is understood. -/
def keyboard (terminal : Handler Serial m) : Handler Serial m
  | .receive => enterKey <$> terminal .receive
  | .send byte => terminal (.send byte)
  | .flush => terminal .flush

/-- Shows what the chip has transmitted. -/
def forward (onStation : StationRunner m) (terminal : Handler Serial m) : m Unit := do
  let sent ← onStation (Station.onChip (modifyGet Chip.takeUart))
  sent.forM fun byte => terminal (.send byte)

/-- A terminal wired to the chip's UART. What the chip transmitted is shown whenever the monitor
receives or flushes, and a byte is typed when the receive queue is empty. -/
def bridge (onStation : StationRunner m) (terminal uart : Handler Serial m) : Handler Serial m
  | .receive => do
    forward onStation terminal
    if (← onStation (Station.onChip (Chip.uartPending <$> get))) = 0 then
      let byte ← terminal .receive
      onStation (Station.onChip (modify (·.pushUart [byte])))
    uart .receive
  | .send byte => uart (.send byte)
  | .flush => do
    uart .flush
    forward onStation terminal
    terminal .flush

/-- The channel that the options ask for. -/
def Options.channel (options : Options) (config : Config) (patience : Nat)
    (onStation : StationRunner m) (terminal : Handler Serial m) : Handler Serial m :=
  match options.uart, config.uartBase with
  | true, some base =>
    let bus : Handler Bus m := fun request => onStation (Station.bus request)
    bridge onStation (keyboard terminal) (Uart.handler config.layout bus base patience)
  | _, _ => keyboard terminal

/-- Detects the chip and serves the console. -/
def Options.serve (options : Options) (patience : Nat) (onStation : StationRunner m)
    (terminal : Handler Serial m) : m Empty := do
  let bus : Handler Bus m := fun request => onStation (Station.bus request)
  let config ← Config.detect.handle bus
  let channel := options.channel config patience onStation terminal
  (Monitor.serve ⟨config, build, patience⟩).handle <|
    Console.handler config.layout bus channel (onStation (Station.editor <$> get)) fun editor =>
      onStation (modify ({ · with editor }))

end

/-! ### A whole run -/

/-- What is left of a run: the exit code, and what went to either output. -/
structure Outcome where
  code : Nat
  output : Bytes := []
  errors : Text := []
  deriving DecidableEq, Repr

/-- Only a halted chip is a failure. -/
def exitCode : Stop → Nat
  | .halted => 101
  | _ => 0

/-- Runs on given files and a given input. Each byte of the input is received at most once, which
bounds every loop. -/
def Options.run (options : Options) (files : Files) (input : Bytes) : Outcome :=
  match (options.power files.read).run.run input with
  | (.error failure, _) => { code := 1, errors := failure.report }
  | (.ok chip, input) =>
    let served := options.serve (input.length + 1) (fun run => run) Station.direct
    match served.run { chip, terminal := { typed := input } } with
    | .ok never _ => nomatch never
    | .error stop station => { code := exitCode stop, output := station.terminal.output }

end DebugMonitor.CommandLine
