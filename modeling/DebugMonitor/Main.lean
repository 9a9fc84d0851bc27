import DebugMonitor.CommandLine

/-!
# The program

Runs the monitor on a simulated chip, with standard input and output for its terminal.
-/

namespace DebugMonitor.Live

open CommandLine Sim

/-- A run on real streams. The station is kept outside it, so a stop does not lose it. -/
abbrev Run := ExceptT Stop (StateT Station IO)

instance : Stalls Run where
  stall := throw .stalled

def onStation {α : Type} (run : EStateM Stop Station α) : Run α := do
  match run (← get) with
  | .ok a station => do
    set station
    return a
  | .error stop station => do
    set station
    throw stop

/-- The next byte of the input. Everything sent so far is shown first. -/
def receive : Run UInt8 := do
  (← IO.getStdout).flush
  let bytes ← (← IO.getStdin).read 1
  if h : 0 < bytes.size then return bytes[0] else throw .inputExhausted

def terminal : Handler Serial Run
  | .receive => receive
  | .send byte => do (← IO.getStdout).write ⟨#[byte]⟩
  | .flush => do (← IO.getStdout).flush

/-- The system's error number. One that comes with a path is negated. -/
def isError (code number : UInt32) : Bool := code = number || code = -number

/-- The failure that stands for an error of the system. -/
def fileFailure : IO.Error → FileFailure
  | .noFileOrDirectory .. => .notFound
  | .permissionDenied .. => .denied
  | .inappropriateType _ code _ => if isError code 20 then .notDirectory else .isDirectory
  | .invalidArgument _ code reason => if isError code 36 then .nameTooLong else .other reason
  | error => .other (toString error)

/-- Reads a file, without its failure being one of the program. -/
def readFile (path : Text) : IO (Except FileFailure Bytes) := do
  try
    return .ok (← IO.FS.readBinFile (String.ofList path)).toList
  catch error => return .error (fileFailure error)

/-- More rounds than any run lives to see. -/
def patience : Nat := 0x10000000000000000

def usage : String := "usage: [--chip NAME] [--image FILE] [--uart]"

def serve (options : Options) (chip : Chip) : IO UInt32 := do
  match ← (options.serve patience onStation terminal).run.run { chip } with
  | (.ok never, _) => nomatch never
  | (.error stop, _) => do
    (← IO.getStdout).flush
    if stop = .halted then IO.eprintln (String.ofList stop.message)
    return (exitCode stop).toUInt32

end DebugMonitor.Live

open DebugMonitor CommandLine Live in
/-- Starts as the options ask for it, and tells why if that is not possible. -/
def main (arguments : List String) : IO UInt32 := do
  let some options := Options.parse {} (arguments.map String.toList)
    | do
      IO.eprintln usage
      return 2
  match ← (options.power readFile).run with
  | .ok chip => serve options chip
  | .error failure => do
    IO.eprint (String.ofList failure.report)
    return 1
