import DebugMonitor.Bulk.Opcode
import DebugMonitor.Console.Basic

/-!
# Bulk sessions

In bulk mode the host talks raw bytes. After the opcode come little-endian 32-bit fields: the
address, then the value of a word to write or the length of a block, and behind the length of a
block to write its bytes. Words and blocks that are read are sent back as raw bytes. There is no
framing: bytes that are no opcode are skipped, and no byte inside a request is special.

A session is fed byte by byte. Where the data window has to be moved, a block is read by whole
words, each of them before it is sent, and the rest byte by byte.
-/

namespace DebugMonitor.Bulk

/-! ### Fields -/

/-- A little-endian field of which `count` bytes have come. -/
structure Field where
  value : UInt32 := 0
  count : Nat := 0
  deriving DecidableEq, Repr

/-- The field with one more byte, or its value once the fourth is there. -/
def Field.push (field : Field) (byte : UInt8) : Field ⊕ UInt32 :=
  let value := field.value ||| byte.toUInt32 <<< (8 * field.count).toUInt32
  if field.count + 1 = 4 then .inr value else .inl ⟨value, field.count + 1⟩

/-! ### States -/

/-- How much of a request has come, with all that was learned from it. -/
inductive State where
  | idle
  | address (transfer : Transfer) (field : Field)
  | value (address : UInt32) (field : Field)
  | length (direction : Direction) (address : UInt32) (field : Field)
  | data (address remaining : UInt32)
  deriving DecidableEq, Repr

/-- Whether the session goes on behind a byte. -/
inductive Flow where
  | more
  | exit
  deriving DecidableEq, Repr

/-- A session between two bytes. Whether blocks are read by words is settled when it starts. -/
structure Session where
  state : State
  byWords : Bool
  deriving DecidableEq, Repr

namespace Session

/-- A session that expects an opcode. -/
def start (layout : Layout) : Session := ⟨.idle, layout.paging = .banked⟩

def isIdle (session : Session) : Bool := session.state = .idle

/-! ### Serving requests -/

def sendWord (address : UInt32) : Program Console Unit := do
  Console.sendAll (Word.toBytes (← Console.memory (Memory.readWord address)))

def sendWords (address : UInt32) : Nat → Program Console Unit
  | 0 => pure ()
  | count + 1 => do
    sendWord address
    sendWords (address + 4) count

def sendBytes (address : UInt32) : Nat → Program Console Unit
  | 0 => pure ()
  | count + 1 => do
    Console.send (← Console.memory (Memory.read address))
    sendBytes (address + 1) count

/-- Sends a block, by words as far as it has whole ones if that is asked for. -/
def sendBlock (byWords : Bool) (address : UInt32) (length : Nat) : Program Console Unit := do
  let words := if byWords then length / 4 else 0
  sendWords address words
  sendBytes (address + (4 * words).toUInt32) (length - 4 * words)

/-- The address is complete. A word to read can be sent, and every other request has more to
come. -/
def feedAddress (transfer : Transfer) (address : UInt32) : Program Console State :=
  match transfer with
  | .word .read => do
    sendWord address
    return .idle
  | .word .write => return .value address {}
  | .block direction => return .length direction address {}

/-- The length is complete. A block to read can be sent, and a block to write that is empty is
done. -/
def feedLength (byWords : Bool) (direction : Direction) (address length : UInt32) :
    Program Console State :=
  match direction with
  | .read => do
    sendBlock byWords address length.toNat
    return .idle
  | .write => return if length = 0 then .idle else .data address length

/-- Takes a byte into account: the requests it completes are served, and the state is told. -/
def next (byWords : Bool) (byte : UInt8) : State → Program Console State
  | .idle =>
    match Opcode.ofByte? byte with
    | some (.transfer transfer) => return .address transfer {}
    | _ => return .idle
  | .address transfer field =>
    match field.push byte with
    | .inl field => return .address transfer field
    | .inr address => feedAddress transfer address
  | .value address field =>
    match field.push byte with
    | .inl field => return .value address field
    | .inr value => do
      Console.memory (Memory.writeWord address value)
      return .idle
  | .length direction address field =>
    match field.push byte with
    | .inl field => return .length direction address field
    | .inr length => feedLength byWords direction address length
  | .data address remaining => do
    Console.memory (Memory.write address byte)
    return if remaining = 1 then .idle else .data (address + 1) (remaining - 1)

/-- Only an exit opcode between two requests leaves bulk mode. -/
def flow (state : State) (byte : UInt8) : Flow :=
  if state = .idle ∧ Opcode.ofByte? byte = some .exit then .exit else .more

def feed (session : Session) (byte : UInt8) : Program Console (Flow × Session) := do
  let state ← next session.byWords byte session.state
  return (flow session.state byte, { session with state })

/-- Serves requests until the host leaves bulk mode, receiving at most `patience` bytes. -/
def serve (session : Session) : Nat → Program Console Unit
  | 0 => .stalled
  | patience + 1 => do
    match ← session.feed (← Console.receive) with
    | (.exit, _) => pure ()
    | (.more, session) => session.serve patience

end Session

end DebugMonitor.Bulk
