import DebugMonitor.Proofs.Memory.Access

/-!
# What an address means on a simulated chip

The window is a detour. `Layout.locate` says of every address which byte of the chip it stands for,
and `Chip.readAt` and `Chip.writeAt` go to that byte directly, with no page register in the way.
`handle_cycle` says that the bus cycles of an access end up where the direct way leads, and that the
page register is back where it was. All they leave behind is the count of its writes.

They ask two things of the chip (`Layout.Fits`): a page number has eight bits, so paged addresses
have 24; and where there is no page-select register to set, the window has to lie on the first page.
-/

namespace DebugMonitor

open Sim

inductive Location where
  | data (address : UInt32)
  | void
  | code (offset : UInt32)
  | sfr (index : UInt8)
  deriving DecidableEq, Repr

/-- The byte that an address stands for. -/
def Layout.locate (layout : Layout) (address : UInt32) : Location :=
  if address < layout.codeStart then
    if layout.paging = .banked ∨ address < 0x10000 then .data address else .void
  else if address < layout.registerStart then .code (address - layout.codeStart)
  else if 0x80 ≤ address % 256 then .sfr (address % 256).toUInt8
  else .void

/-- Addresses of data that can be seen. -/
structure Layout.Plain (layout : Layout) (address : Nat) : Prop where
  lt_codeStart : address < layout.codeStart.toNat
  lt_window : layout.paging = .unified → address < 0x10000

instance (layout : Layout) (address : Nat) : Decidable (layout.Plain address) :=
  decidable_of_iff
    (address < layout.codeStart.toNat ∧ (layout.paging = .unified → address < 0x10000))
    ⟨fun h => ⟨h.1, h.2⟩, fun h => ⟨h.lt_codeStart, h.lt_window⟩⟩

theorem Layout.Plain.locate_eq {layout : Layout} {address : UInt32}
    (h : layout.Plain address.toNat) : layout.locate address = .data address := by
  have hcode : address < layout.codeStart := UInt32.lt_iff_toNat_lt.mpr h.lt_codeStart
  rw [locate, if_pos hcode]
  cases hpaging : layout.paging with
  | banked => rfl
  | unified =>
    have hwindow : address < 0x10000 := UInt32.lt_iff_toNat_lt.mpr (h.lt_window hpaging)
    rw [if_pos (.inr hwindow)]

/-- Below the code no address wraps round. -/
theorem Layout.Plain.toNat_add {layout : Layout} {address : UInt32} {i : Nat}
    (h : layout.Plain (address.toNat + i)) : (address + i.toUInt32).toNat = address.toNat + i := by
  have hcode := h.lt_codeStart
  have hlimit : layout.codeStart.toNat < 2 ^ 32 := layout.codeStart.toNat_lt
  have hsmall : i < 2 ^ 32 := by omega
  rw [UInt32.toNat_add, UInt32.toNat_ofNat_of_lt' hsmall, Nat.mod_eq_of_lt (by omega)]

/-- A block of plain data is shorter than all addresses together. -/
theorem Layout.Plain.count_lt {layout : Layout} {address count : Nat}
    (h : ∀ i < count, layout.Plain (address + i)) : count < 2 ^ 32 := by
  cases count with
  | zero => exact Nat.two_pow_pos 32
  | succ count =>
    have hlast := (h count (Nat.lt_succ_self count)).lt_codeStart
    have hlimit : layout.codeStart.toNat < 2 ^ 32 := layout.codeStart.toNat_lt
    omega

structure Layout.Fits (layout : Layout) (chip : Chip) : Prop where
  codeStart_le : layout.codeStart ≤ 0x1000000
  page_eq_zero : layout.paging = .unified → chip.page = 0

/-- Fitting the layout is a matter of the page. -/
theorem Layout.Fits.of_page {layout : Layout} {chip other : Chip} (h : layout.Fits chip)
    (hpage : other.page = chip.page) : layout.Fits other where
  codeStart_le := h.codeStart_le
  page_eq_zero hunified := hpage.trans (h.page_eq_zero hunified)

/-- How often an access to a location writes the page register. -/
def Layout.switches (layout : Layout) : Location → Nat
  | .data _ => if layout.paging = .banked then 2 else 0
  | _ => 0

namespace Sim.UartQueues

/-- A register stands at its offset from the base, wherever the base is. -/
theorem register?_eq_some_iff {queues : UartQueues} {address register : UInt32} :
    queues.register? address = some register ↔
      address.toNat = queues.base.toNat + register.toNat ∧ register ≤ Uart.lastRegister := by
  have hle : queues.base ≤ address ↔ queues.base.toNat ≤ address.toNat := UInt32.le_iff_toNat_le
  rw [register?]
  constructor
  · split
    next h =>
      rintro ⟨⟩
      have hsub := UInt32.toNat_sub_of_le _ _ h.1
      have hbase := hle.mp h.1
      exact ⟨by omega, h.2⟩
    next => nofun
  · rintro ⟨hplace, hlast⟩
    have hbase : queues.base ≤ address := hle.mpr (by omega)
    have hsub : address - queues.base = register := by
      rw [← UInt32.toNat_inj, UInt32.toNat_sub_of_le _ _ hbase, hplace, Nat.add_sub_cancel_left]
    rw [hsub, if_pos ⟨hbase, hlast⟩]

end Sim.UartQueues

namespace Sim.Chip

def readAt (chip : Chip) : Location → UInt8 × Chip
  | .data address => chip.load address
  | .void => (0, chip)
  | .code offset => (chip.code.get offset.toNat, chip)
  | .sfr index => (chip.register index, chip)

def writeAt (chip : Chip) (value : UInt8) : Location → Chip
  | .data address => chip.store address value
  | .void | .code _ => chip
  | .sfr index => chip.setRegister index value

/-- A request answered at a location, with no way to go. -/
def direct (chip : Chip) (location : Location) : (request : Memory.Request) → request.Answer × Chip
  | .read _ => chip.readAt location
  | .write _ value => ((), chip.writeAt value location)

/-- The chip with another page, and another count of page switches. -/
def turned (chip : Chip) (page : UInt8) (switches : Nat) : Chip :=
  { chip with page, pageSwitches := switches }

/-- The chip after so many more page switches. -/
def switched (chip : Chip) (count : Nat) : Chip :=
  { chip with pageSwitches := chip.pageSwitches + count }

/-! ### The page register has no part in the data -/

/-- Turning the page does not change what an address holds. -/
theorem load_turned (chip : Chip) (page : UInt8) (switches : Nat) (address : UInt32) :
    (chip.turned page switches).load address =
      ((chip.load address).1, (chip.load address).2.turned page switches) := by
  have hreg : (chip.turned page switches).uartRegister? address = chip.uartRegister? address := rfl
  rw [load, load, hreg]
  cases chip.uartRegister? address with
  | none => rfl
  | some found => rfl

theorem store_turned (chip : Chip) (page : UInt8) (switches : Nat) (address : UInt32)
    (value : UInt8) :
    (chip.turned page switches).store address value =
      (chip.store address value).turned page switches := by
  have hreg : (chip.turned page switches).uartRegister? address = chip.uartRegister? address := rfl
  rw [store, store, hreg]
  cases chip.uartRegister? address with
  | none =>
    show (if chip.reachable address then _ else _) = _
    cases chip.reachable address <;> rfl
  | some found => rfl

/-- A load touches nothing but the queues of a UART. -/
theorem load_frame (chip : Chip) (address : UInt32) :
    ∃ uart, (chip.load address).2 = { chip with uart } := by
  rw [load]
  cases chip.uartRegister? address with
  | none => exact ⟨chip.uart, rfl⟩
  | some found => exact ⟨_, rfl⟩

/-- A store touches nothing but data cells and the queues of a UART. -/
theorem store_frame (chip : Chip) (address : UInt32) (value : UInt8) :
    ∃ data uart, chip.store address value = { chip with data, uart } := by
  rw [store]
  cases chip.uartRegister? address with
  | none =>
    cases chip.reachable address with
    | true => exact ⟨_, chip.uart, rfl⟩
    | false => exact ⟨chip.data, chip.uart, rfl⟩
  | some found => exact ⟨chip.data, _, rfl⟩

/-! ### Bytes of data, registers -/

/-- A cell that was written holds its byte, and no other cell has changed. -/
theorem peek_poke (chip : Chip) (written address : UInt32) (value : UInt8) :
    (chip.poke written value).peek address =
      if written = address then value else chip.peek address := by
  simp only [peek, poke, Cells.get_set, UInt32.toNat_inj]

theorem register_setRegister (chip : Chip) (written index value : UInt8) :
    (chip.setRegister written value).register index =
      if written = index then value else chip.register index := by
  have hindex : index.toNat < 256 := index.toNat_lt
  show (chip.registers.set written.toNat value written.toNat_lt)[index.toNat] = _
  rw [Vector.getElem_set]
  simp only [UInt8.toNat_inj]
  rfl

/-- Putting back what a register held undoes the change before it. -/
theorem setRegister_restore (chip : Chip) (index value : UInt8) :
    (chip.setRegister index value).setRegister index (chip.register index) = chip := by
  have hindex : index.toNat < 256 := index.toNat_lt
  have hregisters : (chip.registers.set index.toNat value index.toNat_lt).set index.toNat
      chip.registers[index.toNat] index.toNat_lt = chip.registers := by
    rw [Vector.set_set, Vector.set_getElem_self]
  exact congrArg (fun registers => { chip with registers }) hregisters

/-- Without a lock every address answers. -/
theorem reachable_of_unlocked {chip : Chip} (h : chip.locked = none) (address : UInt32) :
    chip.reachable address = true := by
  rw [reachable, h]
  rfl

/-- Without UART and lock, data is plain data. -/
theorem load_of_plain {chip : Chip} (huart : chip.uart = none) (hlocked : chip.locked = none)
    (address : UInt32) : chip.load address = (chip.peek address, chip) := by
  simp [load, uartRegister?, huart, reachable_of_unlocked hlocked]

theorem store_of_plain {chip : Chip} (huart : chip.uart = none) (hlocked : chip.locked = none)
    (address : UInt32) (value : UInt8) : chip.store address value = chip.poke address value := by
  simp [store, uartRegister?, huart, reachable_of_unlocked hlocked]

end Sim.Chip

/-! ### Brackets

What is handled between the two writes of a bracket finds the register as the first one left it. -/

section

variable {layout : Layout} {address : UInt32}

theorem Layout.filter_covers_eq_some {gate : PowerGate} (hgate : layout.gate = some gate)
    (hcovers : gate.covers address = true) :
    layout.gate.filter (·.covers address) = some gate := by
  rw [hgate, Option.filter_some, if_pos hcovers]

theorem Layout.filter_covers_eq_none
    (h : ∀ gate, layout.gate = some gate → gate.covers address = false) :
    layout.gate.filter (·.covers address) = none := by
  rw [Option.filter_eq_none_iff]
  intro gate hgate
  rw [h gate hgate]
  exact Bool.false_ne_true

end

namespace Sim.Chip

theorem handle_register {index : UInt8} (h : firstRegister ≤ index) (chip : Chip) :
    (Bus.register index).handle bus chip = .ok (chip.register index) chip := by
  show EStateM.Result.ok (if firstRegister ≤ index then _ else _) _ = _
  rw [if_pos h]

theorem handle_setRegister {index : UInt8} (h : firstRegister ≤ index) (value : UInt8)
    (chip : Chip) :
    (Bus.setRegister index value).handle bus chip = .ok () (chip.setRegister index value) := by
  show EStateM.Result.ok () (if firstRegister ≤ index then _ else _) = _
  rw [if_pos h]

/-- A cycle on a banked chip runs on the page it asks for. -/
theorem handle_paged {α : Type} {layout : Layout} (hbanked : layout.paging = .banked) (page : UInt8)
    {cycle : Program Bus α} {chip after : Chip} {answer : α}
    (hcycle : cycle.handle bus (chip.turned page (chip.pageSwitches + 1)) = .ok answer after) :
    (layout.paged page cycle).handle bus chip =
      .ok answer (after.turned chip.page (after.pageSwitches + 1)) := by
  simp only [Layout.paged, hbanked]
  rw [Program.handle_bind_ok (a := chip.page) (t := chip) rfl]
  rw [Program.handle_bind_ok (a := ()) (t := chip.turned page (chip.pageSwitches + 1)) rfl]
  rw [Program.handle_bind_ok hcycle]
  rfl

/-- A gated cycle runs with the power bits set. -/
theorem handle_powered {α : Type} {layout : Layout} {gate : PowerGate} {address : UInt32}
    (hgate : layout.gate = some gate) (hcovers : gate.covers address = true)
    (hregister : firstRegister ≤ gate.register) {cycle : Program Bus α} {chip after : Chip}
    {answer : α}
    (hcycle : cycle.handle bus
      (chip.setRegister gate.register (chip.register gate.register ||| gate.mask)) =
        .ok answer after) :
    (layout.powered address cycle).handle bus chip =
      .ok answer (after.setRegister gate.register (chip.register gate.register)) := by
  simp only [Layout.powered, Layout.filter_covers_eq_some hgate hcovers]
  rw [Program.handle_bind_ok (handle_register hregister chip)]
  rw [Program.handle_bind_ok (handle_setRegister hregister _ chip)]
  rw [Program.handle_bind_ok hcycle]
  rw [Program.handle_bind_ok (handle_setRegister hregister _ after)]
  rfl

/-- Outside the band there is no bracket. -/
theorem powered_of_not_covers {α : Type} {layout : Layout} {address : UInt32}
    (h : ∀ gate, layout.gate = some gate → gate.covers address = false) (cycle : Program Bus α) :
    layout.powered address cycle = cycle := by
  simp only [Layout.powered, Layout.filter_covers_eq_none h]

end Sim.Chip

/-! ### Routes -/

def Memory.Request.address : Memory.Request → UInt32
  | .read address => address
  | .write address _ => address

/-- The cycle of an access, without the power bracket around it. -/
def Layout.cycle (layout : Layout) : (request : Memory.Request) → Program Bus request.Answer
  | .read address => layout.readCycle (layout.route address)
  | .write address value => layout.writeCycle value (layout.route address)

/-- An access is a power bracket around its cycle. -/
theorem Layout.access_eq (layout : Layout) (request : Memory.Request) :
    layout.access request = layout.powered request.address (layout.cycle request) := by
  cases request <;> rfl

/-- Page and offset make up an address again. -/
theorem page_join_offset {address : UInt32} (h : address < 0x1000000) :
    (address >>> 16).toUInt8.toUInt32 <<< 16 ||| address.toUInt16.toUInt32 = address := by
  have hlt : address.toNat < 0x1000000 := h
  have hpage : address.toNat >>> 16 < 256 := by omega
  rw [← UInt32.toNat_inj, UInt32.toNat_or, UInt32.toNat_shiftLeft, UInt8.toNat_toUInt32,
    UInt32.toNat_toUInt8, UInt32.toNat_shiftRight, UInt16.toNat_toUInt32, UInt32.toNat_toUInt16]
  rw [show (16 : UInt32).toNat % 32 = 16 from rfl, Nat.mod_eq_of_lt hpage]
  rw [Nat.mod_eq_of_lt (by omega), ← Nat.shiftLeft_add_eq_or_of_lt (by omega)]
  omega

/-- The first page ends where an address needs a seventeenth bit. -/
theorem page_eq_zero_iff {address : UInt32} (h : address < 0x1000000) :
    (address >>> 16).toUInt8 = 0 ↔ address < 0x10000 := by
  have hlt : address.toNat < 0x1000000 := h
  rw [← UInt8.toNat_inj, UInt32.lt_iff_toNat_lt, UInt32.toNat_toUInt8, UInt32.toNat_shiftRight]
  rw [show (16 : UInt32).toNat % 32 = 16 from rfl, show (0 : UInt8).toNat = 0 from rfl,
    show (0x10000 : UInt32).toNat = 0x10000 from rfl]
  omega

theorem toUInt8_mod (address : UInt32) : (address % 256).toUInt8 = address.toUInt8 := by
  rw [← UInt8.toNat_inj, UInt32.toNat_toUInt8, UInt32.toNat_toUInt8, UInt32.toNat_mod]
  exact Nat.mod_mod _ _

theorem le_toUInt8_iff (address : UInt32) :
    Chip.firstRegister ≤ address.toUInt8 ↔ 0x80 ≤ address % 256 := by
  rw [UInt8.le_iff_toNat_le, UInt32.le_iff_toNat_le, UInt32.toNat_toUInt8, UInt32.toNat_mod]
  rfl

/-- A route and the location it leads to. A window shows the location if it lies on the right page,
which for chips without a page register is the first one. -/
inductive Layout.Leads (layout : Layout) : Route → Location → Prop
  | window {page : UInt8} {offset : UInt16} {address : UInt32} :
      page.toUInt32 <<< 16 ||| offset.toUInt32 = address →
      (layout.paging = .unified → page = 0) →
      Leads layout (.window page offset) (.data address)
  | nowhere : Leads layout .nowhere .void
  | code {offset : UInt32} : Leads layout (.code offset) (.code offset)
  | mapped {index : UInt8} :
      Chip.firstRegister ≤ index → Leads layout (.register index) (.sfr index)
  | unmapped {index : UInt8} : ¬ Chip.firstRegister ≤ index → Leads layout (.register index) .void

/-- Every address is routed to where it lies. -/
theorem Layout.leads_route {layout : Layout} (h : layout.codeStart ≤ 0x1000000)
    (address : UInt32) : layout.Leads (layout.route address) (layout.locate address) := by
  rw [Layout.route, Layout.locate]
  -- Both are told by the same thresholds, so they are compared between them.
  by_cases hdata : address < layout.codeStart
  · have hlt : address < 0x1000000 := UInt32.lt_of_lt_of_le hdata h
    rw [if_pos hdata, if_pos hdata]
    by_cases hpaging : layout.paging = .banked
    · have hpage : ¬ (layout.paging = .unified ∧ (address >>> 16).toUInt8 ≠ 0) := by
        simp [hpaging]
      rw [if_neg hpage, if_pos (.inl hpaging)]
      exact .window (page_join_offset hlt) (fun hunified => by simp [hpaging] at hunified)
    · -- Without pages, what is beyond the first 64 KiB is nowhere on both sides.
      have hunified : layout.paging = .unified := by
        cases hp : layout.paging with
        | unified => rfl
        | banked => exact absurd hp hpaging
      by_cases hfirst : address < 0x10000
      · have hzero := (page_eq_zero_iff hlt).mpr hfirst
        rw [if_neg (fun hpage => hpage.2 hzero), if_pos (.inr hfirst)]
        exact .window (page_join_offset hlt) (fun _ => hzero)
      · have hzero := mt (page_eq_zero_iff hlt).mp hfirst
        rw [if_pos ⟨hunified, hzero⟩, if_neg (by simp [hpaging, hfirst])]
        exact .nowhere
  · rw [if_neg hdata, if_neg hdata]
    by_cases hcode : address < layout.registerStart
    · rw [if_pos hcode, if_pos hcode]
      exact .code
    · -- The register is the low byte of the address, for the route as for the location.
      rw [if_neg hcode, if_neg hcode, toUInt8_mod]
      by_cases hmapped : (0x80 : UInt32) ≤ address % 256
      · rw [if_pos hmapped]
        exact .mapped ((le_toUInt8_iff address).mpr hmapped)
      · rw [if_neg hmapped]
        exact .unmapped (mt (le_toUInt8_iff address).mp hmapped)

/-- Data lies at its own address. -/
theorem Layout.eq_of_locate_eq_data {layout : Layout} {address found : UInt32}
    (h : layout.locate address = .data found) : found = address := by
  rw [Layout.locate] at h
  split at h
  · split at h
    · exact (Location.data.inj h).symm
    · cases h
  · split at h
    · cases h
    · split at h <;> cases h

/-- Registers lie above the data. -/
theorem Layout.locate_ne_sfr {layout : Layout} {address : UInt32} (h : address < layout.codeStart)
    (index : UInt8) : layout.locate address ≠ .sfr index := by
  rw [Layout.locate, if_pos h]
  split <;> exact fun hsfr => by cases hsfr

namespace Sim.Chip

/-! ### Cycles

A cycle along a route does what the direct way does. -/

variable {layout : Layout} {chip : Chip}

theorem handle_load (offset : UInt16) (chip : Chip) :
    (Bus.load offset).handle bus chip =
      .ok (chip.load (chip.physical offset)).1 (chip.load (chip.physical offset)).2 := rfl

theorem handle_store (offset : UInt16) (value : UInt8) (chip : Chip) :
    (Bus.store offset value).handle bus chip =
      .ok () (chip.store (chip.physical offset) value) := rfl

/-- On a chip without a page register the window lies on the first page. -/
theorem physical_of_unified (hfits : layout.Fits chip) (hunified : layout.paging = .unified)
    {page : UInt8} {offset : UInt16} (hpage : layout.paging = .unified → page = 0) :
    chip.physical offset = page.toUInt32 <<< 16 ||| offset.toUInt32 := by
  rw [physical, hfits.page_eq_zero hunified, hpage hunified]

theorem handle_readCycle (hfits : layout.Fits chip) {route : Route} {location : Location}
    (hleads : layout.Leads route location) :
    (layout.readCycle route).handle bus chip =
      .ok (chip.readAt location).1
        ((chip.readAt location).2.switched (layout.switches location)) := by
  cases hleads with
  | @window page offset address hjoin hpage =>
    cases hpaging : layout.paging with
    | unified =>
      simp only [Layout.readCycle, Layout.paged, Layout.switches, hpaging]
      rw [handle_load, physical_of_unified hfits hpaging hpage, hjoin]
      rfl
    | banked =>
      have hload := handle_load offset (chip.turned page (chip.pageSwitches + 1))
      -- With the page turned, the offset stands for the address.
      have hphysical : (chip.turned page (chip.pageSwitches + 1)).physical offset = address := hjoin
      rw [hphysical, load_turned] at hload
      rw [Layout.readCycle, handle_paged hpaging page hload]
      obtain ⟨uart, hframe⟩ := chip.load_frame address
      simp only [Layout.switches, hpaging, readAt, turned, switched, hframe]
      rfl
  | nowhere => rfl
  | code => rfl
  | mapped h => exact handle_register h chip
  | @unmapped index h =>
    show EStateM.Result.ok (if firstRegister ≤ index then _ else _) _ = _
    rw [if_neg h]
    rfl

theorem handle_writeCycle (hfits : layout.Fits chip) {route : Route} {location : Location}
    (hleads : layout.Leads route location) (value : UInt8) :
    (layout.writeCycle value route).handle bus chip =
      .ok () ((chip.writeAt value location).switched (layout.switches location)) := by
  cases hleads with
  | @window page offset address hjoin hpage =>
    cases hpaging : layout.paging with
    | unified =>
      simp only [Layout.writeCycle, Layout.paged, Layout.switches, hpaging]
      rw [handle_store, physical_of_unified hfits hpaging hpage, hjoin]
      rfl
    | banked =>
      have hstore := handle_store offset value (chip.turned page (chip.pageSwitches + 1))
      -- With the page turned, the offset stands for the address.
      have hphysical : (chip.turned page (chip.pageSwitches + 1)).physical offset = address := hjoin
      rw [hphysical, store_turned] at hstore
      rw [Layout.writeCycle, handle_paged hpaging page hstore]
      obtain ⟨data, uart, hframe⟩ := chip.store_frame address value
      simp only [Layout.switches, hpaging, writeAt, turned, switched, hframe]
      rfl
  | nowhere => rfl
  | code => rfl
  | mapped h => exact handle_setRegister h value chip
  | @unmapped index h =>
    show EStateM.Result.ok () (if firstRegister ≤ index then _ else _) = _
    rw [if_neg h]
    rfl

/-! ### Accesses to one byte

Where no power bracket stands around the cycle, an access does what the direct way does. -/

/-- A cycle does what the request says, and turns pages as its location needs. -/
theorem handle_cycle (hfits : layout.Fits chip) (request : Memory.Request) :
    (layout.cycle request).handle bus chip =
      .ok (chip.direct (layout.locate request.address) request).1
        ((chip.direct (layout.locate request.address) request).2.switched
          (layout.switches (layout.locate request.address))) := by
  have hleads := Layout.leads_route hfits.codeStart_le request.address
  cases request with
  | read address => exact handle_readCycle hfits hleads
  | write address value => exact handle_writeCycle hfits hleads value

/-- Outside the gate an access is its cycle. -/
theorem memory_of_not_covers (hfits : layout.Fits chip) {request : Memory.Request}
    (hgate : ∀ gate, layout.gate = some gate → gate.covers request.address = false) :
    memory layout request chip =
      .ok (chip.direct (layout.locate request.address) request).1
        ((chip.direct (layout.locate request.address) request).2.switched
          (layout.switches (layout.locate request.address))) := by
  rw [memory, Layout.access_eq, powered_of_not_covers hgate]
  exact handle_cycle hfits request

end Sim.Chip

end DebugMonitor
