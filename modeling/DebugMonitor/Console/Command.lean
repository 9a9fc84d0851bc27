import DebugMonitor.Text.Basic

/-!
# Commands

The commands of the console, under the names they are called by and with the usage that is shown
when arguments are missing. Names are matched exactly.
-/

namespace DebugMonitor

/-- How much of memory an access moves. -/
inductive Width where
  | byte
  | word
  deriving DecidableEq, Repr

/-- The commands, those on memory in the two widths. -/
inductive Command where
  | help
  | version
  | read (width : Width)
  | write (width : Width)
  | reset
  | bulk
  deriving DecidableEq, Repr

namespace Command

/-- In the order in which they are listed and tried. -/
def all : List Command :=
  [help, version, read .byte, read .word, write .byte, write .word, reset, bulk]

/-- What a command is called on the console. -/
def name : Command → Text
  | help => "help"
  | version => "version"
  | read .byte => "mrb"
  | read .word => "mrw"
  | write .byte => "mwb"
  | write .word => "mww"
  | reset => "reset"
  | bulk => "bmo"

def ofName? (text : Text) : Option Command := all.find? (·.name == text)

/-! ### Usage -/

def parameters : Command → Text
  | help | version | bulk => ""
  | read _ => " address"
  | write _ => " address value"
  | reset => " [rom]"

/-- The arguments of the examples in the usage. -/
def examples : Command → List Text
  | help | version | bulk | reset => []
  | read _ => ["0x00000000", "0x8", "00000", "c", "00201000", "201000"]
  | write .byte => ["0x00200000 0", "0x100008 c0", "100000 0x08", "20100c 0x1", "00201000 0"]
  | write .word => ["0x00200000 0", "0x100008 1234", "100000 0x008", "20100c 0x1", "00201000 0"]

def exampleLine (command : Command) (arguments : Text) : Text :=
  "\n    " ++ command.name ++ " " ++ arguments

/-- How a command is called, with examples if there are any. -/
def usage (command : Command) : Text :=
  let usageLine := "Usage: " ++ command.name ++ command.parameters
  if command.examples.isEmpty then usageLine
  else usageLine ++ "\nExamples:" ++ command.examples.flatMap command.exampleLine

end Command

end DebugMonitor
