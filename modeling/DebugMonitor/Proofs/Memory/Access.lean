import DebugMonitor.Proofs.Simulation
import DebugMonitor.Proofs.Word
import DebugMonitor.Sim.Chip

/-!
# Accesses to the flat memory

The four things a user of the flat memory can do to it, and what a sequence of them leaves behind on
a simulated chip: after each access its answer and the chip as it stands then.
-/

namespace DebugMonitor.Memory

inductive Access where
  | readByte (address : UInt32)
  | writeByte (address : UInt32) (value : UInt8)
  | readWord (address : UInt32)
  | writeWord (address value : UInt32)
  deriving DecidableEq, Repr

inductive Access.Answer where
  | done
  | byte (value : UInt8)
  | word (value : UInt32)
  deriving DecidableEq, Repr

def Access.program : Access → Program Memory Answer
  | readByte address => do return .byte (← read address)
  | writeByte address value => do
    write address value
    return .done
  | readWord address => do return .word (← Memory.readWord address)
  | writeWord address value => do
    Memory.writeWord address value
    return .done

/-! ### Offsets

Accesses in a row go from an address to the next one; seen from the first address they go through
its offsets, which wrap round with it. -/

theorem add_zero_offset (address : UInt32) : address + Nat.toUInt32 0 = address :=
  UInt32.add_zero address

theorem add_succ_offset (address : UInt32) (i : Nat) :
    address + (i + 1).toUInt32 = address + 1 + i.toUInt32 := by
  rw [Nat.add_comm]
  exact Word.add_offset address 1 i

/-! ### No access waits -/

theorem readBytes_within (address : UInt32) (count : Nat) :
    (readBytes address count).Within fun _ => True := by
  induction count generalizing address with
  | zero => exact .pure _
  | succ count ih =>
    exact (Program.Within.ask trivial).bind fun b => (ih _).bind fun rest => .pure _

theorem writeBytes_within (address : UInt32) (bytes : Bytes) :
    (writeBytes address bytes).Within fun _ => True := by
  induction bytes generalizing address with
  | nil => exact .pure _
  | cons b rest ih => exact (Program.Within.ask trivial).bind fun _ => ih _

theorem Access.program_within (access : Access) : access.program.Within fun _ => True := by
  cases access with
  | readByte address => exact (Program.Within.ask trivial).bind fun _ => .pure _
  | writeByte address value => exact (Program.Within.ask trivial).bind fun _ => .pure _
  | readWord address =>
    exact ((readBytes_within address 4).bind fun _ => .pure _).bind fun _ => .pure _
  | writeWord address value => exact (writeBytes_within address _).bind fun _ => .pure _

end Memory

/-- Everything that can be asked of the bus but to halt is a cycle that the chip answers. -/
def Bus.IsCycle (request : Bus.Request) : Prop := request ≠ .halt

/-- Requests that read, and those of the brackets around a read: the page register is written only
where the window moves, and a side-band register only if it is that of the gate. -/
def Bus.Looks (layout : Layout) : Bus.Request → Prop
  | .load _ | .code _ | .register _ => True
  | .page | .setPage _ => layout.paging = .banked
  | .setRegister index _ => ∃ gate ∈ layout.gate, gate.register = index
  | .store _ _ | .halt => False

namespace Layout

variable {α : Type} {layout : Layout} {allowed : Bus.Request → Prop}

/-- The page bracket makes calls of its own only where data is paged. -/
theorem paged_within {page : UInt8} {cycle : Program Bus α} (h : cycle.Within allowed)
    (hbracket : layout.paging = .banked → allowed .page ∧ ∀ page, allowed (.setPage page)) :
    (layout.paged page cycle).Within allowed := by
  rw [paged]
  cases hpaging : layout.paging with
  | unified => exact h
  | banked =>
    obtain ⟨hread, hset⟩ := hbracket hpaging
    refine (Program.Within.ask (I := Bus) hread).bind fun saved => ?_
    refine (Program.Within.ask (I := Bus) (hset _)).bind fun _ => h.bind fun answer => ?_
    exact (Program.Within.ask (I := Bus) (hset _)).bind fun _ => .pure _

/-- The power bracket makes calls of its own only on the register of the gate. -/
theorem powered_within {address : UInt32} {cycle : Program Bus α} (h : cycle.Within allowed)
    (hbracket : ∀ gate ∈ layout.gate,
      allowed (.register gate.register) ∧ ∀ value, allowed (.setRegister gate.register value)) :
    (layout.powered address cycle).Within allowed := by
  rw [powered]
  cases hgate : layout.gate.filter (·.covers address) with
  | none => exact h
  | some gate =>
    obtain ⟨hread, hset⟩ := hbracket gate (Option.filter_eq_some_iff.mp hgate).1
    refine (Program.Within.ask (I := Bus) hread).bind fun saved => ?_
    refine (Program.Within.ask (I := Bus) (hset _)).bind fun _ => h.bind fun answer => ?_
    exact (Program.Within.ask (I := Bus) (hset _)).bind fun _ => .pure _

/-- No access halts the chip, or waits for it. -/
theorem access_within (request : Memory.Request) : (layout.access request).Within Bus.IsCycle := by
  -- Neither bracket halts, and neither does a cycle.
  have hpage : layout.paging = .banked →
      Bus.IsCycle .page ∧ ∀ page, Bus.IsCycle (.setPage page) := fun _ => ⟨nofun, nofun⟩
  have hgate : ∀ gate ∈ layout.gate, Bus.IsCycle (.register gate.register) ∧
      ∀ value, Bus.IsCycle (.setRegister gate.register value) := fun _ _ => ⟨nofun, nofun⟩
  cases request with
  | read address =>
    refine powered_within ?_ hgate
    cases layout.route address with
    | window page offset => exact paged_within (.ask nofun) hpage
    | nowhere => exact .pure _
    | code offset => exact .ask nofun
    | register index => exact .ask nofun
  | write address value =>
    refine powered_within ?_ hgate
    cases layout.route address with
    | window page offset => exact paged_within (.ask nofun) hpage
    | nowhere => exact .pure _
    | code offset => exact .pure _
    | register index => exact .ask nofun

/-- A read does not store. -/
theorem read_within (layout : Layout) (address : UInt32) :
    (layout.access (.read address)).Within (Bus.Looks layout) := by
  refine powered_within ?_ fun gate hgate => ⟨trivial, fun _ => ⟨gate, hgate, rfl⟩⟩
  cases layout.route address with
  | window page offset =>
    exact paged_within (.ask trivial) fun hbanked => ⟨hbanked, fun _ => hbanked⟩
  | nowhere => exact .pure _
  | code offset => exact .ask trivial
  | register index => exact .ask trivial

end Layout

namespace Sim.Chip

open Memory (Access)

/-! ### Accesses on a chip -/

/-- The flat memory of a chip that is laid out in the given way. -/
def memory (layout : Layout) : Handler Memory (EStateM Stop Chip) := fun request =>
  (layout.access request).handle bus

/-- A lowered program meets the chip's memory on the bus. -/
theorem handle_lower {α : Type} (layout : Layout) (p : Program Memory α) :
    (layout.lower p).handle bus = p.handle (memory layout) :=
  Program.handle_handle _ _ _

def perform (layout : Layout) (access : Access) : EStateM Stop Chip Access.Answer :=
  (layout.lower access.program).handle bus

/-- A chip answers everything but a halt. -/
theorem bus_answers (request : Bus.Request) (h : Bus.IsCycle request) (chip : Chip) :
    ∃ answer next, bus request chip = .ok answer next := by
  cases request with
  | halt => exact absurd rfl h
  | _ => exact ⟨_, _, rfl⟩

/-- Every access is answered. -/
theorem memory_answers (layout : Layout) (request : Memory.Request) (chip : Chip) :
    ∃ answer next, memory layout request chip = .ok answer next :=
  Layout.access_within request |>.returns bus_answers chip

/-- Performs accesses one after another. Each leaves its answer and the chip as it stands then. -/
def history (layout : Layout) : List Access → EStateM Stop Chip (List (Access.Answer × Chip))
  | [] => return []
  | access :: rest => do
    let answer ← perform layout access
    let chip ← get
    return (answer, chip) :: (← history layout rest)

theorem perform_eq_handle (layout : Layout) (access : Access) :
    perform layout access = access.program.handle (memory layout) :=
  handle_lower layout access.program

/-- The first access decides where the others go on from. -/
theorem history_cons {layout : Layout} {access : Access} {rest : List Access}
    {chip next last : Chip} {answer : Access.Answer} {entries : List (Access.Answer × Chip)}
    (h : perform layout access chip = .ok answer next)
    (hrest : history layout rest next = .ok entries last) :
    history layout (access :: rest) chip = .ok ((answer, next) :: entries) last := by
  show EStateM.bind (perform layout access) _ chip = _
  rw [EStateM.bind, h]
  show EStateM.bind (history layout rest) _ next = _
  rw [EStateM.bind, hrest]
  rfl

end Sim.Chip

end DebugMonitor
