import DebugMonitor.Program

/-!
# The bus

The processor's own view of the chip. Data is seen through a window of 64 KiB, which a page-select
register moves; code space and the side-band registers have instructions of their own. Halting
leaves the chip to its reset hardware, so it has no answer.
-/

namespace DebugMonitor

/-- What the processor asks of the chip, one request for each kind of bus cycle. -/
inductive Bus.Request where
  | page
  | setPage (page : UInt8)
  | load (offset : UInt16)
  | store (offset : UInt16) (value : UInt8)
  | code (offset : UInt32)
  | register (index : UInt8)
  | setRegister (index value : UInt8)
  | halt
  deriving DecidableEq, Repr

/-- Reads are answered by a byte. A halt is never answered. -/
abbrev Bus.Request.Answer : Bus.Request → Type
  | page | load _ | code _ | register _ => UInt8
  | setPage _ | store _ _ | setRegister _ _ => Unit
  | halt => Empty

abbrev Bus : Interface := ⟨Bus.Request, Bus.Request.Answer⟩

namespace Bus

def ask (request : Request) : Program Bus request.Answer := Program.ask (I := Bus) request

def page : Program Bus UInt8 := ask .page
def setPage (page : UInt8) : Program Bus Unit := ask (.setPage page)
def load (offset : UInt16) : Program Bus UInt8 := ask (.load offset)
def store (offset : UInt16) (value : UInt8) : Program Bus Unit := ask (.store offset value)
def code (offset : UInt32) : Program Bus UInt8 := ask (.code offset)
def register (index : UInt8) : Program Bus UInt8 := ask (.register index)
def setRegister (index value : UInt8) : Program Bus Unit := ask (.setRegister index value)

end Bus

end DebugMonitor
