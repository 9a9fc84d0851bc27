import DebugMonitor.Chip.Variant
import DebugMonitor.Memory.Layout
import DebugMonitor.Sim.Cells
import DebugMonitor.Stop
import DebugMonitor.Uart

/-!
# A simulated chip

A banked controller: data cells behind the page register, a code image, the file of side-band
registers and, if attached, the queues of a UART. The UART's registers hide the data cells under
them. A locked band of data answers only while its power bit is set. Registers below 0x80 do not
answer on the bus.
-/

namespace DebugMonitor.Sim

/-- An attached UART, by the bytes that wait on either side of it. -/
structure UartQueues where
  base : UInt32
  received : Bytes := []
  /-- The newest byte comes first. -/
  sent : Bytes := []
  lineControl : UInt8 := 0
  deriving DecidableEq

/-- The state of a simulated chip. A blank one has zeros everywhere and no UART. -/
structure Chip where
  page : UInt8 := 0
  /-- How often the page register was written. -/
  pageSwitches : Nat := 0
  data : Cells := .empty
  code : Cells := .empty
  registers : Vector UInt8 256 := .replicate 256 0
  uart : Option UartQueues := none
  locked : Option PowerGate := none

namespace UartQueues

/-- What waits to be taken from the transmit queue, in order. -/
def transmitted (queues : UartQueues) : Bytes := queues.sent.reverse

/-- The room that the transmit queue reports: it never fills. -/
def room : UInt8 := 16

/-- The register at an address, if the block reaches that far. -/
def register? (queues : UartQueues) (address : UInt32) : Option UInt32 :=
  if queues.base ≤ address ∧ address - queues.base ≤ Uart.lastRegister then
    some (address - queues.base)
  else none

/-- Reading the receive buffer takes a byte out of the queue. -/
def load (queues : UartQueues) (register : UInt32) : UInt8 × UartQueues :=
  if register = Uart.receiveBuffer then
    (queues.received.headD 0, { queues with received := queues.received.tail })
  else if register = Uart.lineControl then (queues.lineControl, queues)
  else if register = Uart.receiveLevel then ((min queues.received.length 255).toUInt8, queues)
  else if register = Uart.transmitRoom then (room, queues)
  else (0, queues)

/-- Writing the transmit holding register appends to the queue. Most other registers take no
notice. -/
def store (queues : UartQueues) (register : UInt32) (value : UInt8) : UartQueues :=
  if register = Uart.transmitHolding then { queues with sent := value :: queues.sent }
  else if register = Uart.lineControl then { queues with lineControl := value }
  else queues

end UartQueues

namespace Chip

/-! ### Registers -/

def register (chip : Chip) (index : UInt8) : UInt8 :=
  chip.registers.get ⟨index.toNat, index.toNat_lt⟩

def setRegister (chip : Chip) (index value : UInt8) : Chip :=
  { chip with registers := chip.registers.set index.toNat value index.toNat_lt }

/-- Below this there is nothing to be seen on the bus. -/
def firstRegister : UInt8 := 0x80

/-! ### Data

Addresses are physical: the page, then the offset into it. -/

/-- The address that an offset into the window stands for. -/
def physical (chip : Chip) (offset : UInt16) : UInt32 :=
  chip.page.toUInt32 <<< 16 ||| offset.toUInt32

/-- Whether a data cell answers: it is outside the locked band, or a power bit of the band is
set. -/
def reachable (chip : Chip) (address : UInt32) : Bool :=
  match chip.locked.filter (·.covers address) with
  | some gate => chip.register gate.register &&& gate.mask ≠ 0
  | none => true

def peek (chip : Chip) (address : UInt32) : UInt8 := chip.data.get address.toNat

def poke (chip : Chip) (address : UInt32) (value : UInt8) : Chip :=
  { chip with data := chip.data.set address.toNat value }

/-- The UART register that an address belongs to, if any. -/
def uartRegister? (chip : Chip) (address : UInt32) : Option (UartQueues × UInt32) := do
  let queues ← chip.uart
  return (queues, ← queues.register? address)

/-- Reads data. A register of the UART hides the cell under it, and a cell out of reach reads as
zero. -/
def load (chip : Chip) (address : UInt32) : UInt8 × Chip :=
  match chip.uartRegister? address with
  | some (queues, register) =>
    let (value, queues) := queues.load register
    (value, { chip with uart := some queues })
  | none => (if chip.reachable address then chip.peek address else 0, chip)

/-- Writes data. A register of the UART hides the cell under it, and a cell out of reach keeps its
byte. -/
def store (chip : Chip) (address : UInt32) (value : UInt8) : Chip :=
  match chip.uartRegister? address with
  | some (queues, register) => { chip with uart := some (queues.store register value) }
  | none => if chip.reachable address then chip.poke address value else chip

/-! ### Set-up and the far end of the UART -/

/-- Lays an image into code space, over what is there. -/
def loadCode (chip : Chip) (offset : UInt32) (image : Bytes) : Chip :=
  { chip with code := chip.code.load offset.toNat image }

/-- A blank chip but for the token in its code. -/
def withToken (token : Bytes) : Chip := loadCode {} Variant.tokenOffset token

def lock (chip : Chip) (band : PowerGate) : Chip := { chip with locked := some band }

def attachUart (chip : Chip) (base : UInt32) : Chip := { chip with uart := some { base } }

/-- Sends bytes to the chip. Without a UART they are lost. -/
def pushUart (chip : Chip) (bytes : Bytes) : Chip :=
  { chip with
    uart := chip.uart.map fun queues => { queues with received := queues.received ++ bytes } }

def uartPending (chip : Chip) : Nat :=
  match chip.uart with
  | some queues => queues.received.length
  | none => 0

/-- What the chip transmitted, in order. -/
def takeUart (chip : Chip) : Bytes × Chip :=
  match chip.uart with
  | some queues => (queues.transmitted, { chip with uart := some { queues with sent := [] } })
  | none => ([], chip)

def nonzeroRegisters (chip : Chip) : List (Nat × UInt8) :=
  chip.registers.toList.zipIdx.filterMap fun (value, index) =>
    if value ≠ 0 then some (index, value) else none

/-! ### Bus -/

/-- What the chip does in each bus cycle. -/
def answer : (request : Bus.Request) → EStateM Stop Chip request.Answer
  | .page => return (← get).page
  | .setPage page => modify fun chip => { chip with page, pageSwitches := chip.pageSwitches + 1 }
  | .load offset => modifyGet fun chip => chip.load (chip.physical offset)
  | .store offset value => modify fun chip => chip.store (chip.physical offset) value
  | .code offset => return (← get).code.get offset.toNat
  | .register index => do
    let chip ← get
    return if firstRegister ≤ index then chip.register index else 0
  | .setRegister index value =>
    modify fun chip => if firstRegister ≤ index then chip.setRegister index value else chip
  | .halt => throw .halted

def bus : Handler Bus (EStateM Stop Chip) := answer

end Chip

end DebugMonitor.Sim
