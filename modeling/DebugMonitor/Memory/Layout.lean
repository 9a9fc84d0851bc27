import DebugMonitor.Bus
import DebugMonitor.Memory.Basic

/-!
# Where an address leads

A layout lays the data window, code space and the side-band registers side by side in the flat
memory, and `Layout.access` turns an access to one byte into the bus cycles for it. Two brackets can
stand around the cycle itself. The page bracket saves the page-select register, moves the window and
restores the register; the power bracket, outside it, does the same to the power bit of a band that
is switched off while nobody uses it.

Chips with unified addressing have no page-select register. Their window never moves, and data
beyond its 64 KiB is nowhere.
-/

namespace DebugMonitor

/-- Whether the data window can be moved. -/
inductive Paging where
  | unified
  | banked
  deriving DecidableEq, Repr

/-- The addresses from `first` up to, but not including, `limit` answer only while the power bits of
`mask` are set in a side-band register. -/
structure PowerGate where
  first : UInt32
  limit : UInt32
  register : UInt8
  mask : UInt8
  deriving DecidableEq, Repr

/-- Whether an address lies in the band. -/
def PowerGate.covers (gate : PowerGate) (address : UInt32) : Bool :=
  gate.first ≤ address && address < gate.limit

theorem PowerGate.covers_iff {gate : PowerGate} {address : UInt32} :
    gate.covers address = true ↔ gate.first ≤ address ∧ address < gate.limit :=
  Bool.and_eq_true_iff.trans (and_congr decide_eq_true_iff decide_eq_true_iff)

/-- Data lies below `codeStart`, registers at or above `registerStart`, code between them. -/
structure Layout where
  paging : Paging
  codeStart : UInt32
  registerStart : UInt32
  gate : Option PowerGate := none
  deriving DecidableEq, Repr

/-- Where one byte of the flat memory is. -/
inductive Route where
  | window (page : UInt8) (offset : UInt16)
  | nowhere
  | code (offset : UInt32)
  | register (index : UInt8)
  deriving DecidableEq, Repr

namespace Layout

/-- All of data is within reach, page by page. -/
def banked : Layout := ⟨.banked, 0x400000, 0xc00000, none⟩

/-- The same places, but of data only the first page is there. -/
def unified : Layout := { banked with paging := .unified }

/-- Data goes by page and offset, code by its distance from `codeStart`, and of the address of a
register only the low byte counts. -/
def route (layout : Layout) (address : UInt32) : Route :=
  if address < layout.codeStart then
    let page := (address >>> 16).toUInt8
    if layout.paging = .unified ∧ page ≠ 0 then .nowhere else .window page address.toUInt16
  else if address < layout.registerStart then .code (address - layout.codeStart)
  else .register address.toUInt8

/-! ### Brackets -/

/-- Moves the window to a page for one cycle, and back again. -/
def paged {α : Type} (layout : Layout) (page : UInt8) (cycle : Program Bus α) : Program Bus α :=
  match layout.paging with
  | .unified => cycle
  | .banked => do
    let saved ← Bus.page
    Bus.setPage page
    let answer ← cycle
    Bus.setPage saved
    return answer

/-- Switches a gated band on for one cycle, if the address lies in it, and restores its register
afterwards. -/
def powered {α : Type} (layout : Layout) (address : UInt32) (cycle : Program Bus α) :
    Program Bus α :=
  match layout.gate.filter (·.covers address) with
  | none => cycle
  | some gate => do
    let saved ← Bus.register gate.register
    Bus.setRegister gate.register (saved ||| gate.mask)
    let answer ← cycle
    Bus.setRegister gate.register saved
    return answer

/-! ### Accesses -/

/-- The cycle that reads a byte. What is nowhere reads as zero without one. -/
def readCycle (layout : Layout) : Route → Program Bus UInt8
  | .window page offset => layout.paged page (Bus.load offset)
  | .nowhere => pure 0
  | .code offset => Bus.code offset
  | .register index => Bus.register index

/-- The cycle that writes a byte. Code cannot be written, and what is nowhere swallows the byte. -/
def writeCycle (layout : Layout) (value : UInt8) : Route → Program Bus Unit
  | .window page offset => layout.paged page (Bus.store offset value)
  | .nowhere | .code _ => pure ()
  | .register index => Bus.setRegister index value

/-- The bus cycles of one access, the power bracket outside the page bracket. -/
def access (layout : Layout) : Handler Memory (Program Bus)
  | .read address => layout.powered address (layout.readCycle (layout.route address))
  | .write address value => layout.powered address (layout.writeCycle value (layout.route address))

/-- A program on the flat memory as a program on the bus. -/
def lower {α : Type} (layout : Layout) (program : Program Memory α) : Program Bus α :=
  program.handle layout.access

end Layout

end DebugMonitor
