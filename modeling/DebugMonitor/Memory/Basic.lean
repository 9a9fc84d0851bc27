import DebugMonitor.Bytes
import DebugMonitor.Program

/-!
# The flat memory

Everything above the bus sees one space of bytes with 32-bit addresses. No access fails: what is not
there reads as zero, and writes to it are dropped. A word is four byte accesses, in ascending order,
whose addresses wrap round.
-/

namespace DebugMonitor

/-- An access to one byte. -/
inductive Memory.Request where
  | read (address : UInt32)
  | write (address : UInt32) (value : UInt8)
  deriving DecidableEq, Repr

abbrev Memory.Request.Answer : Memory.Request → Type
  | read _ => UInt8
  | write _ _ => Unit

abbrev Memory : Interface := ⟨Memory.Request, Memory.Request.Answer⟩

namespace Memory

def ask (request : Request) : Program Memory request.Answer := Program.ask (I := Memory) request

def read (address : UInt32) : Program Memory UInt8 := ask (.read address)

def write (address : UInt32) (value : UInt8) : Program Memory Unit := ask (.write address value)

/-- Reads `count` bytes side by side, by ascending addresses. -/
def readBytes (address : UInt32) : Nat → Program Memory Bytes
  | 0 => pure []
  | count + 1 => do
    let b ← read address
    let rest ← readBytes (address + 1) count
    return b :: rest

/-- Writes bytes side by side, by ascending addresses. -/
def writeBytes (address : UInt32) : Bytes → Program Memory Unit
  | [] => pure ()
  | b :: rest => do
    write address b
    writeBytes (address + 1) rest

/-- Reads a word, which need not be aligned. -/
def readWord (address : UInt32) : Program Memory UInt32 := do
  return Word.ofBytes (← readBytes address 4)

/-- Writes a word, which need not be aligned. -/
def writeWord (address value : UInt32) : Program Memory Unit :=
  writeBytes address (Word.toBytes value)

end Memory

end DebugMonitor
