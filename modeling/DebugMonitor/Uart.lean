import DebugMonitor.Memory.Layout
import DebugMonitor.Serial

/-!
# The UART

A serial channel on top of the chip's memory-mapped UART. Two registers report how full the receive
queue is and how much room the transmit queue has. The driver reads a report again and again until
it is good enough, and only then moves one byte; how often it may do so is its patience.
-/

namespace DebugMonitor.Uart

/-! ### Registers

Offsets from the base of the block. -/

def receiveBuffer : UInt32 := 0
def transmitHolding : UInt32 := 1
def lineControl : UInt32 := 3
def receiveLevel : UInt32 := 5
def transmitRoom : UInt32 := 6

/-- The last register of the block. -/
def lastRegister : UInt32 := transmitRoom

/-- Eight data bits, no parity, one stop bit. -/
def line8N1 : UInt8 := 0x03

def setLine (base : UInt32) : Program Memory Unit :=
  Memory.write (base + lineControl) line8N1

/-! ### Channel -/

/-- Room enough to send. -/
def roomToSend : UInt8 := 8

/-- The room that an empty transmit queue reports. -/
def roomWhenDrained : UInt8 := 15

/-- Reads a register until it is at least `enough`. -/
def await (register : UInt32) (enough : UInt8) : Nat → Program Memory Unit
  | 0 => .stalled
  | patience + 1 => do
    if (← Memory.read register) < enough then await register enough patience

/-- The driver. Receiving waits until a byte is there, sending until there is room, and flushing
until all of the room is back. -/
def channel (base : UInt32) (patience : Nat) : Handler Serial (Program Memory)
  | .receive => do
    await (base + receiveLevel) 1 patience
    Memory.read (base + receiveBuffer)
  | .send byte => do
    await (base + transmitRoom) roomToSend patience
    Memory.write (base + transmitHolding) byte
  | .flush => await (base + transmitRoom) roomWhenDrained patience

/-- The channel on a bus, with a view of memory of its own. -/
def handler {m : Type → Type} [Monad m] [Stalls m] (layout : Layout) (bus : Handler Bus m)
    (base : UInt32) (patience : Nat) : Handler Serial m := fun request =>
  (layout.lower (channel base patience request)).handle bus

end DebugMonitor.Uart
