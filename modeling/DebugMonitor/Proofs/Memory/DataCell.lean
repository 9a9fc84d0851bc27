import DebugMonitor.Proofs.Memory.Reading

/-!
# Accesses to a data cell

Whether an access gets to the data cell of its address depends on all that may stand between them:
the window, the power gate, a lock, and a UART whose registers lie there. `IsCell` puts it together.
Where it holds, a read finds what is in the cell and a write leaves its value there, and nothing
else happens but page switches (`handle_read_cell`, `handle_write_cell`). Neither what the cells
hold nor how often the page was switched makes a cell of an address, so one access does not get in
the way of the next (`IsCell.of_data`).
-/

namespace DebugMonitor.Sim.Chip

/-- An access to the address goes to the data cell of the address: the cell is seen there, no
register of a UART lies over it, and it can be reached while the power bits of the gate are set. -/
structure IsCell (layout : Layout) (chip : Chip) (address : UInt32) : Prop where
  seen : cell? layout chip address = some address
  uncovered : chip.uartRegister? address = none
  reachable : (chip.opened layout address).reachable address = true

instance (layout : Layout) (chip : Chip) (address : UInt32) :
    Decidable (chip.IsCell layout address) :=
  decidable_of_iff
    (cell? layout chip address = some address ∧ chip.uartRegister? address = none ∧
      (chip.opened layout address).reachable address = true)
    ⟨fun h => ⟨h.1, h.2.1, h.2.2⟩, fun h => ⟨h.seen, h.uncovered, h.reachable⟩⟩

variable {layout : Layout} {chip : Chip} {address : UInt32}

/-! ### Accesses -/

theorem opened_data (layout : Layout) (chip : Chip) (address : UInt32) (data : Cells)
    (switches : Nat) :
    ({ chip with data, pageSwitches := switches } : Chip).opened layout address =
      { chip.opened layout address with data, pageSwitches := switches } := by
  unfold opened
  cases layout.gate.filter (·.covers address) with
  | none => rfl
  | some gate =>
    simp only [writeRegister]
    split <;> rfl

namespace IsCell

/-- What the cells hold does not matter, nor the count of page switches. -/
theorem of_data (h : chip.IsCell layout address) (data : Cells) (switches : Nat) :
    ({ chip with data, pageSwitches := switches } : Chip).IsCell layout address where
  seen := h.seen
  uncovered := h.uncovered
  reachable := by
    rw [opened_data]
    exact h.reachable

theorem load_opened (h : chip.IsCell layout address) :
    (chip.opened layout address).load address =
      (chip.peek address, chip.opened layout address) := by
  have hreachable := h.reachable
  obtain ⟨registers, hframe⟩ := chip.opened_frame layout address
  rw [hframe] at hreachable ⊢
  have huart : ({ chip with registers } : Chip).uartRegister? address = none := h.uncovered
  rw [load, huart]
  simp only [hreachable]
  rfl

theorem store_opened (h : chip.IsCell layout address) (value : UInt8) :
    (chip.opened layout address).store address value =
      { chip.poke address value with registers := (chip.opened layout address).registers } := by
  have hreachable := h.reachable
  obtain ⟨registers, hframe⟩ := chip.opened_frame layout address
  rw [hframe] at hreachable ⊢
  have huart : ({ chip with registers } : Chip).uartRegister? address = none := h.uncovered
  rw [store, huart]
  simp only [hreachable]
  rfl

theorem seen_opened (h : chip.IsCell layout address) :
    cell? layout (chip.opened layout address) address = some address := by
  obtain ⟨registers, hframe⟩ := chip.opened_frame layout address
  rw [hframe]
  exact h.seen

end IsCell

/-- A cell is read as it is, and only page switches are counted. -/
theorem handle_read_cell (h : chip.IsCell layout address) :
    ∃ switches, (Memory.read address).handle (memory layout) chip =
      .ok (chip.peek address) { chip with pageSwitches := switches } := by
  rw [Memory.read, Memory.ask, Program.handle_ask]
  obtain ⟨count, hcycle⟩ := handle_readCycle_cell h.seen_opened
  rw [h.load_opened] at hcycle
  have hafter : (chip.opened layout address).switched count =
      { chip with
        registers := (chip.opened layout address).registers
        pageSwitches := chip.pageSwitches + count } := by
    obtain ⟨registers, hframe⟩ := chip.opened_frame layout address
    rw [hframe]
    rfl
  refine ⟨chip.pageSwitches + count, memory_of_opened ?_⟩
  exact hcycle.trans (congrArg _ hafter)

/-- A cell is written, and only page switches are counted besides. -/
theorem handle_write_cell (h : chip.IsCell layout address) (value : UInt8) :
    ∃ switches, (Memory.write address value).handle (memory layout) chip =
      .ok () { chip.poke address value with pageSwitches := switches } := by
  rw [Memory.write, Memory.ask, Program.handle_ask]
  obtain ⟨count, hcycle⟩ := handle_writeCycle_cell h.seen_opened value
  rw [h.store_opened] at hcycle
  refine ⟨chip.pageSwitches + count, memory_of_opened ?_⟩
  exact hcycle

/-- A byte is read, and written back as something else. -/
theorem handle_update_cell (h : chip.IsCell layout address) (change : UInt8 → UInt8) :
    ∃ switches,
      (Memory.read address >>= fun value => Memory.write address (change value)).handle
        (memory layout) chip =
      .ok () { chip.poke address (change (chip.peek address)) with pageSwitches := switches } := by
  obtain ⟨once, hread⟩ := handle_read_cell h
  obtain ⟨switches, hwrite⟩ :=
    handle_write_cell (h.of_data chip.data once) (change (chip.peek address))
  exact ⟨switches, (Program.handle_bind_ok hread).trans hwrite⟩

end DebugMonitor.Sim.Chip
