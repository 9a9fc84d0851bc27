import DebugMonitor.Proofs.Memory.Location

/-!
# Brackets on any chip

What the two brackets around a cycle do is settled here for every layout, every gate and every chip,
whether the gate's register is mapped or not and wherever the window lies. Around a load or a store
the page bracket has no trace but two page switches (`handle_paged_load`, `handle_paged_store`). The
power bracket leaves the register to which it belongs as it found it, if the cycle does.
-/

namespace DebugMonitor.Sim.Chip

variable {α : Type} {layout : Layout}

/-! ### The window on another page -/

/-- The physical address that a window shows. -/
def windowAddress (page : UInt8) (offset : UInt16) : UInt32 :=
  page.toUInt32 <<< 16 ||| offset.toUInt32

/-- A load in its page turns the page twice. -/
theorem handle_paged_load (hbanked : layout.paging = .banked) (page : UInt8) (offset : UInt16)
    (chip : Chip) :
    (layout.paged page (Bus.load offset)).handle bus chip =
      .ok (chip.load (windowAddress page offset)).1
        ((chip.load (windowAddress page offset)).2.switched 2) := by
  have hload := handle_load offset (chip.turned page (chip.pageSwitches + 1))
  have hphysical : (chip.turned page (chip.pageSwitches + 1)).physical offset =
      windowAddress page offset := rfl
  rw [hphysical, load_turned] at hload
  rw [handle_paged hbanked page hload]
  obtain ⟨uart, hframe⟩ := chip.load_frame (windowAddress page offset)
  simp only [turned, switched, hframe]

theorem handle_paged_store (hbanked : layout.paging = .banked) (page : UInt8) (offset : UInt16)
    (value : UInt8) (chip : Chip) :
    (layout.paged page (Bus.store offset value)).handle bus chip =
      .ok () ((chip.store (windowAddress page offset) value).switched 2) := by
  have hstore := handle_store offset value (chip.turned page (chip.pageSwitches + 1))
  have hphysical : (chip.turned page (chip.pageSwitches + 1)).physical offset =
      windowAddress page offset := rfl
  rw [hphysical, store_turned] at hstore
  rw [handle_paged hbanked page hstore]
  obtain ⟨data, uart, hframe⟩ := chip.store_frame (windowAddress page offset) value
  simp only [turned, switched, hframe]

/-- Where nothing is paged there is no bracket. -/
theorem paged_of_unified (hunified : layout.paging = .unified) (page : UInt8)
    (cycle : Program Bus α) : layout.paged page cycle = cycle := by
  simp only [Layout.paged, hunified]

/-! ### Registers that answer, and registers that do not -/

def readRegister (chip : Chip) (index : UInt8) : UInt8 :=
  if firstRegister ≤ index then chip.register index else 0

def writeRegister (chip : Chip) (index value : UInt8) : Chip :=
  if firstRegister ≤ index then chip.setRegister index value else chip

theorem writeRegister_frame (chip : Chip) (index value : UInt8) :
    ∃ registers, chip.writeRegister index value = { chip with registers } := by
  rw [writeRegister]
  split
  · exact ⟨_, rfl⟩
  · exact ⟨chip.registers, rfl⟩

/-- What becomes of the registers is a matter of the registers. -/
theorem writeRegister_registers (chip effect : Chip) (switches : Nat) (index value : UInt8) :
    Chip.writeRegister { effect with registers := chip.registers, pageSwitches := switches } index
        value =
      { effect with
        registers := (chip.writeRegister index value).registers
        pageSwitches := switches } := by
  simp only [writeRegister]
  split <;> rfl

/-- Putting back what was read undoes what was written in between. -/
theorem writeRegister_restore (chip : Chip) (index value : UInt8) :
    (chip.writeRegister index value).writeRegister index (chip.readRegister index) = chip := by
  simp only [writeRegister, readRegister]
  split
  · exact setRegister_restore chip index value
  · rfl

/-- Inside the gate a cycle runs with the power bits set, and the register is written back. -/
theorem powered_of_covers {gate : PowerGate} {address : UInt32}
    (hgate : layout.gate = some gate) (hcovers : gate.covers address = true)
    {cycle : Program Bus α} {chip after : Chip} {answer : α}
    (hcycle : cycle.handle bus
      (chip.writeRegister gate.register (chip.readRegister gate.register ||| gate.mask)) =
        .ok answer after) :
    (layout.powered address cycle).handle bus chip =
      .ok answer (after.writeRegister gate.register (chip.readRegister gate.register)) := by
  simp only [Layout.powered, Layout.filter_covers_eq_some hgate hcovers]
  rw [Program.handle_bind_ok (a := chip.readRegister gate.register) (t := chip) rfl]
  rw [Program.handle_bind_ok (a := ()) (t := chip.writeRegister gate.register _) rfl]
  rw [Program.handle_bind_ok hcycle]
  rfl

/-- A gate covers an address or it does not, and only where it does there is a bracket. -/
theorem powered_cases (layout : Layout) (address : UInt32) :
    (∀ cycle : Program Bus α, layout.powered address cycle = cycle) ∨
      ∃ gate, layout.gate = some gate ∧ gate.covers address = true := by
  cases hgate : layout.gate with
  | none =>
    left
    intro cycle
    apply powered_of_not_covers
    intro gate hsome
    rw [hgate] at hsome
    cases hsome
  | some gate =>
    cases hcovers : gate.covers address with
    | true => exact .inr ⟨gate, rfl, hcovers⟩
    | false =>
      left
      intro cycle
      apply powered_of_not_covers
      intro found hsome
      rw [hgate] at hsome
      cases hsome
      exact hcovers

/-- The chip as an access finds it: where a gate covers the address, its power bits are set. -/
def opened (layout : Layout) (chip : Chip) (address : UInt32) : Chip :=
  match layout.gate.filter (·.covers address) with
  | none => chip
  | some gate => chip.writeRegister gate.register (chip.readRegister gate.register ||| gate.mask)

/-- Opening the gate changes no more than registers. -/
theorem opened_frame (layout : Layout) (chip : Chip) (address : UInt32) :
    ∃ registers, chip.opened layout address = { chip with registers } := by
  unfold opened
  cases layout.gate.filter (·.covers address) with
  | none => exact ⟨chip.registers, rfl⟩
  | some gate => exact chip.writeRegister_frame gate.register _

/-- An access does what its cycle does to the opened chip, and closes it again. -/
theorem memory_of_opened {request : Memory.Request} {chip effect : Chip}
    {answer : request.Answer} {switches : Nat}
    (hcycle : (layout.cycle request).handle bus (chip.opened layout request.address) =
      .ok answer { effect with
        registers := (chip.opened layout request.address).registers
        pageSwitches := switches }) :
    memory layout request chip =
      .ok answer { effect with registers := chip.registers, pageSwitches := switches } := by
  rw [memory, Layout.access_eq]
  cases hfilter : layout.gate.filter (·.covers request.address) with
  | none =>
    simp only [opened, hfilter] at hcycle
    simp only [Layout.powered, hfilter]
    exact hcycle
  | some gate =>
    obtain ⟨hgate, hcovers⟩ := Option.filter_eq_some_iff.mp hfilter
    simp only [opened, hfilter] at hcycle
    rw [powered_of_covers hgate hcovers hcycle, writeRegister_registers, writeRegister_restore]

/-- An access that does the same whatever is in the registers, and leaves them alone, does that also
between the brackets. -/
theorem memory_of_direct (request : Memory.Request) {chip : Chip} (hfits : layout.Fits chip)
    (effect : Chip) {answer : request.Answer}
    (hdirect : ∀ registers,
      ({ chip with registers } : Chip).direct (layout.locate request.address) request =
        (answer, { effect with registers })) :
    ∃ switches, memory layout request chip =
      .ok answer { effect with registers := chip.registers, pageSwitches := switches } := by
  obtain ⟨registers, hframe⟩ := chip.opened_frame layout request.address
  have hother : layout.Fits { chip with registers } := hfits.of_page rfl
  let switches := effect.pageSwitches + layout.switches (layout.locate request.address)
  refine ⟨switches, memory_of_opened ?_⟩
  rw [hframe, handle_cycle hother, hdirect]
  rfl

/-! ### Two chips

A bracket keeps two runs in step if its requests and the cycle between them do. -/

/-- Chips in step stay so inside a power bracket. -/
theorem inStep_powered {R : Chip → Chip → Prop}
    (hread : ∀ index, InStep R (bus (.register index)) (bus (.register index)))
    (hwrite : ∀ index value,
      InStep R (bus (.setRegister index value)) (bus (.setRegister index value)))
    {cycle : Program Bus α} (hcycle : InStep R (cycle.handle bus) (cycle.handle bus))
    (address : UInt32) :
    InStep R ((layout.powered address cycle).handle bus)
      ((layout.powered address cycle).handle bus) := by
  rw [Layout.powered]
  cases layout.gate.filter (·.covers address) with
  | none => exact hcycle
  | some gate =>
    simp only [Program.handle_bind]
    have hregister : ∀ index, (Bus.register index).handle bus = bus (.register index) :=
      fun index => Program.handle_ask bus _
    have hset : ∀ index value, (Bus.setRegister index value).handle bus =
        bus (.setRegister index value) :=
      fun index value => Program.handle_ask bus _
    simp only [hregister, hset]
    -- The register is saved, set, and put back behind the cycle: four requests in step.
    refine (hread gate.register).bind fun saved => ?_
    refine (hwrite gate.register (saved ||| gate.mask)).bind fun _ => ?_
    refine hcycle.bind fun answer => ?_
    exact (hwrite gate.register saved).bind fun _ => InStep.pure answer

/-- Where an access can be made directly on both, that is all that has to be compared. -/
theorem inStep_memory_of_direct {R : Chip → Chip → Prop} {request : Memory.Request}
    (hfits : ∀ ⦃left right⦄, R left right → layout.Fits left ∧ layout.Fits right)
    (hread : ∀ ⦃left right⦄, R left right → ∀ index,
      left.readRegister index = right.readRegister index)
    (hwrite : ∀ ⦃left right⦄, R left right → ∀ index value,
      R (left.writeRegister index value) (right.writeRegister index value))
    (hswitched : ∀ ⦃left right⦄, R left right → ∀ count,
      R (left.switched count) (right.switched count))
    (hdirect : ∀ ⦃left right⦄, R left right →
      (left.direct (layout.locate request.address) request).1 =
          (right.direct (layout.locate request.address) request).1 ∧
        R (left.direct (layout.locate request.address) request).2
          (right.direct (layout.locate request.address) request).2) :
    InStep R (memory layout request) (memory layout request) := by
  rw [memory, Layout.access_eq]
  apply inStep_powered
  · intro index left right h
    show Alike _ (.ok (left.readRegister index) left) (.ok (right.readRegister index) right)
    rw [hread h]
    exact .ok h
  · intro index value left right h
    exact .ok (hwrite h index value)
  · intro left right h
    obtain ⟨hanswer, hafter⟩ := hdirect h
    rw [handle_cycle (hfits h).1, handle_cycle (hfits h).2, hanswer]
    exact .ok (hswitched hafter _)

end DebugMonitor.Sim.Chip
