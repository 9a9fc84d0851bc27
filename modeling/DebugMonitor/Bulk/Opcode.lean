/-!
# Bulk opcodes

Every request of the bulk protocol starts with one byte. A transfer reads or writes, and moves one
word or a block of bytes; the remaining opcode leaves bulk mode.
-/

namespace DebugMonitor.Bulk

/-- Which way the bytes go, as the host sees it. -/
inductive Direction where
  | read
  | write
  deriving DecidableEq, Repr

/-- What a request moves. -/
inductive Transfer where
  | word (direction : Direction)
  | block (direction : Direction)
  deriving DecidableEq, Repr

inductive Opcode where
  | exit
  | transfer (transfer : Transfer)
  deriving DecidableEq, Repr

/-- Capital letters are for words and small ones for blocks. Any other byte but Enter is no
opcode. -/
def Opcode.ofByte? (byte : UInt8) : Option Opcode :=
  if byte = '\r'.toUInt8 then some .exit
  else if byte = 'R'.toUInt8 then some (.transfer (.word .read))
  else if byte = 'W'.toUInt8 then some (.transfer (.word .write))
  else if byte = 'r'.toUInt8 then some (.transfer (.block .read))
  else if byte = 'w'.toUInt8 then some (.transfer (.block .write))
  else none

end DebugMonitor.Bulk
