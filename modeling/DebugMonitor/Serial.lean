import DebugMonitor.Program

/-!
# Serial channels

The console talks over a blocking channel of bytes: receiving waits for a byte, sending waits for
room, and flushing waits until everything sent has left the chip.
-/

namespace DebugMonitor

/-- One call on the channel. -/
inductive Serial.Request where
  | receive
  | send (byte : UInt8)
  | flush
  deriving DecidableEq, Repr

abbrev Serial.Request.Answer : Serial.Request → Type
  | receive => UInt8
  | send _ | flush => Unit

abbrev Serial : Interface := ⟨Serial.Request, Serial.Request.Answer⟩

end DebugMonitor
