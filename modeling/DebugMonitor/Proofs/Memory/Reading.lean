import DebugMonitor.Proofs.Memory.PageRegister

/-!
# Reading leaves no trace

Reads through a window that moves are counted in the number of page switches, and that is all there
is to see of them, unless they take a byte out of the UART's receive buffer (`Receives`). Any other
read leaves the chip as it was but for that count (`memory_read_recounted`), and on a chip without a
UART there are only such reads.

The count itself is nothing that anybody on the chip can look at. So two chips that differ in it
alone stay in step through everything that can be asked of the bus (`inStep_bus_recounted`).
-/

namespace DebugMonitor.Sim

/-! ### The registers of a UART -/

namespace UartQueues

variable {queues : UartQueues} {address register : UInt32}

/-- The receive buffer is the only register that notices when it is read. -/
theorem load_of_ne (queues : UartQueues) (h : register ≠ Uart.receiveBuffer) :
    (queues.load register).2 = queues := by
  rw [load, if_neg h]
  repeat' split
  all_goals rfl

/-- The receive buffer is the register at the base, and no other is. -/
theorem register_ne (queues : UartQueues) (h : queues.base ≠ address)
    (hregister : queues.register? address = some register) : register ≠ Uart.receiveBuffer := by
  obtain ⟨hplace, -⟩ := register?_eq_some_iff.mp hregister
  rintro rfl
  exact h (UInt32.toNat_inj.mp hplace.symm)

end UartQueues

namespace Chip

variable {α : Type} {layout : Layout}

/-! ### The count of page switches -/

/-- The same chip, but that its page register may have been written more or less often. -/
def Recounted (left right : Chip) : Prop := left = right.turned right.page left.pageSwitches

namespace Recounted

variable {left middle right : Chip}

theorem refl (chip : Chip) : Recounted chip chip := rfl

theorem switched (chip : Chip) (count : Nat) : Recounted (chip.switched count) chip := rfl

theorem trans (h : Recounted left middle) (h' : Recounted middle right) :
    Recounted left right := by
  unfold Recounted at h h' ⊢
  rw [h, h']
  rfl

theorem eq (h : Recounted left right) : left = right.turned right.page left.pageSwitches := h

theorem page_eq (h : Recounted left right) : left.page = right.page := by
  rw [h.eq]
  rfl

theorem physical_eq (h : Recounted left right) (offset : UInt16) :
    left.physical offset = right.physical offset := by
  rw [h.eq]
  rfl

theorem uart_eq (h : Recounted left right) : left.uart = right.uart := by
  rw [h.eq]
  rfl

/-- What is done without looking at the page register does not know of its count either. -/
theorem act {act : Chip → α × Chip} (hact : Blind act) (h : Recounted left right) :
    (act left).1 = (act right).1 ∧ Recounted (act left).2 (act right).2 := by
  have hright : act right = ((act right).1, (act right).2.turned right.page right.pageSwitches) :=
    hact right right.page right.pageSwitches
  have hpage : (act right).2.page = right.page := congrArg (fun found => found.2.page) hright
  have hleft : act left = ((act right).1, (act right).2.turned right.page left.pageSwitches) := by
    unfold Recounted at h
    rw [h]
    exact hact right right.page left.pageSwitches
  rw [hleft]
  refine ⟨rfl, ?_⟩
  unfold Recounted
  rw [hpage]
  rfl

/-- An act that is blind to the count does the same on both chips. -/
theorem inStep {act : Chip → α × Chip} (hact : Blind act) {run : EStateM Stop Chip α}
    (hrun : ∀ chip, run chip = .ok (act chip).1 (act chip).2) : InStep Recounted run run := by
  intro left right h
  obtain ⟨hanswer, hafter⟩ := h.act hact
  rw [hrun, hrun, hanswer]
  exact .ok hafter

end Recounted

theorem blind_writeRegister (index value : UInt8) :
    Blind fun chip => ((), chip.writeRegister index value) := by
  intro chip page switches
  simp only [writeRegister]
  split <;> rfl

/-- **Nothing on the bus depends on how often the page register was written.** -/
theorem inStep_bus_recounted (request : Bus.Request) :
    InStep Recounted (bus request) (bus request) := by
  -- The page is the same on both chips, so the same cells are reached.
  cases request with
  | page =>
    intro left right h
    have hpage := h.page_eq
    show Alike _ (.ok left.page left) (.ok right.page right)
    rw [hpage]
    exact .ok h
  -- Both counts move on, by one each.
  | setPage page =>
    intro left right h
    refine .ok ?_
    unfold Recounted at h ⊢
    rw [h]
    rfl
  | load offset =>
    intro left right h
    have hphysical := h.physical_eq offset
    have hblind : Blind fun chip => chip.load (right.physical offset) :=
      fun chip page switches => chip.load_turned page switches _
    obtain ⟨hanswer, hafter⟩ := h.act hblind
    show Alike _ (.ok (left.load (left.physical offset)).1 (left.load (left.physical offset)).2)
      (.ok (right.load (right.physical offset)).1 (right.load (right.physical offset)).2)
    rw [hphysical, hanswer]
    exact .ok hafter
  | store offset value =>
    intro left right h
    have hphysical := h.physical_eq offset
    have hblind : Blind fun chip => ((), chip.store (right.physical offset) value) :=
      fun chip page switches => congrArg (Prod.mk ()) (chip.store_turned page switches _ value)
    obtain ⟨-, hafter⟩ := h.act hblind
    show Alike _ (.ok () (left.store (left.physical offset) value))
      (.ok () (right.store (right.physical offset) value))
    rw [hphysical]
    exact .ok hafter
  | code offset =>
    have hblind : Blind fun chip => (chip.code.get offset.toNat, chip) := fun _ _ _ => rfl
    exact Recounted.inStep hblind fun _ => rfl
  | register index =>
    have hblind : Blind fun chip => (chip.readRegister index, chip) := fun _ _ _ => rfl
    exact Recounted.inStep hblind fun _ => rfl
  | setRegister index value =>
    exact Recounted.inStep (blind_writeRegister index value) fun _ => rfl
  | halt =>
    intro left right h
    exact .error h

theorem inStep_memory_recounted (request : Memory.Request) :
    InStep Recounted (memory layout request) (memory layout request) :=
  InStep.handle inStep_bus_recounted _

theorem inStep_handle_recounted (program : Program Memory α) :
    InStep Recounted (program.handle (memory layout)) (program.handle (memory layout)) :=
  InStep.handle inStep_memory_recounted program

theorem Recounted.steady (layout : Layout) : Steady layout Recounted where
  act hact := fun h => h.act hact
  memory := inStep_memory_recounted

/-! ### Reads that take nothing -/

/-- The data cell that is seen at an address, if there is data to be seen. -/
def cell? (layout : Layout) (chip : Chip) (address : UInt32) : Option UInt32 :=
  match layout.route address with
  | .window page offset =>
    match layout.paging with
    | .unified => some (chip.physical offset)
    | .banked => some (windowAddress page offset)
  | .nowhere | .code _ | .register _ => none

/-- Where addresses lead to what they stand for, the cell is the address itself. -/
theorem cell?_eq_some_iff {chip : Chip} (hfits : layout.Fits chip) (address cell : UInt32) :
    cell? layout chip address = some cell ↔ layout.locate address = .data cell := by
  have hleads := Layout.leads_route hfits.codeStart_le address
  rw [cell?]
  generalize layout.route address = route at hleads
  generalize layout.locate address = location at hleads
  cases hleads with
  | @window page offset found hjoin hpage =>
    have hcell : windowAddress page offset = found := hjoin
    cases hpaging : layout.paging with
    | unified =>
      have hphysical : chip.physical offset = _ := physical_of_unified hfits hpaging hpage
      simp [hphysical, hjoin]
    | banked => simp [hcell]
  | nowhere => simp
  | code => simp
  | mapped h => simp
  | unmapped h => simp

/-- A cycle goes to the cell that is seen, wherever the window lies. -/
theorem handle_readCycle_cell {chip : Chip} {address cell : UInt32}
    (h : cell? layout chip address = some cell) :
    ∃ count, (layout.readCycle (layout.route address)).handle bus chip =
      .ok (chip.load cell).1 ((chip.load cell).2.switched count) := by
  unfold cell? at h
  cases hroute : layout.route address with
  | window page offset =>
    rw [Layout.readCycle]
    cases hpaging : layout.paging with
    | unified =>
      simp only [hroute, hpaging, Option.some.injEq] at h
      rw [paged_of_unified hpaging, handle_load, h]
      exact ⟨0, rfl⟩
    | banked =>
      simp only [hroute, hpaging, Option.some.injEq] at h
      rw [handle_paged_load hpaging, h]
      exact ⟨2, rfl⟩
  | nowhere => simp [hroute] at h
  | code offset => simp [hroute] at h
  | register index => simp [hroute] at h

theorem handle_writeCycle_cell {chip : Chip} {address cell : UInt32}
    (h : cell? layout chip address = some cell) (value : UInt8) :
    ∃ count, (layout.writeCycle value (layout.route address)).handle bus chip =
      .ok () ((chip.store cell value).switched count) := by
  unfold cell? at h
  cases hroute : layout.route address with
  | window page offset =>
    rw [Layout.writeCycle]
    cases hpaging : layout.paging with
    | unified =>
      simp only [hroute, hpaging, Option.some.injEq] at h
      rw [paged_of_unified hpaging, handle_store, h]
      exact ⟨0, rfl⟩
    | banked =>
      simp only [hroute, hpaging, Option.some.injEq] at h
      rw [handle_paged_store hpaging, h]
      exact ⟨2, rfl⟩
  | nowhere => simp [hroute] at h
  | code offset => simp [hroute] at h
  | register index => simp [hroute] at h

/-- A read at the address takes a byte that the UART has received: the receive buffer is the first
register of its block. -/
def Receives (layout : Layout) (chip : Chip) (address : UInt32) : Prop :=
  ∃ queues ∈ chip.uart, cell? layout chip address = some queues.base

/-- Without a UART no read receives. -/
theorem not_receives_of_no_uart {chip : Chip} (h : chip.uart = none) (address : UInt32) :
    ¬ Receives layout chip address := by
  rintro ⟨queues, hqueues, -⟩
  rw [h] at hqueues
  cases hqueues

theorem Recounted.receives_iff {left right : Chip} (h : Recounted left right) (address : UInt32) :
    Receives layout left address ↔ Receives layout right address := by
  rw [h.eq]
  exact Iff.rfl

/-- No load but one from the receive buffer changes the chip. -/
theorem load_of_not_base {chip : Chip} {address : UInt32}
    (h : ∀ queues ∈ chip.uart, queues.base ≠ address) : (chip.load address).2 = chip := by
  rw [load]
  cases hfound : chip.uartRegister? address with
  | none => rfl
  | some found =>
    obtain ⟨queues, huart, hrest⟩ := Option.bind_eq_some_iff.mp hfound
    obtain ⟨register, hregister, hpair⟩ := Option.bind_eq_some_iff.mp hrest
    obtain rfl : found = (queues, register) := (Option.some.inj hpair).symm
    have hbuffer := queues.register_ne (h queues huart) hregister
    show { chip with uart := some (queues.load register).2 } = chip
    rw [queues.load_of_ne hbuffer, ← huart]

theorem uart_store {chip : Chip} (h : chip.uart = none) (address : UInt32) (value : UInt8) :
    (chip.store address value).uart = none := by
  have hnone : chip.uartRegister? address = none := by simp [uartRegister?, h]
  rw [store, hnone]
  cases chip.reachable address with
  | true => exact h
  | false => exact h

/-- No request of the bus attaches a UART. -/
theorem uart_bus (request : Bus.Request) {chip : Chip} (h : chip.uart = none) :
    (finalState (bus request chip)).uart = none := by
  cases request with
  | load offset =>
    show (chip.load _).2.uart = none
    rw [load_of_not_base (by simp [h]), h]
  | store offset value => exact uart_store h _ value
  | setRegister index value =>
    show (chip.writeRegister index value).uart = none
    obtain ⟨registers, hframe⟩ := chip.writeRegister_frame index value
    rw [hframe]
    exact h
  | page => exact h
  | setPage page => exact h
  | code offset => exact h
  | register index => exact h
  | halt => exact h

theorem uart_memory (request : Memory.Request) {chip : Chip} (h : chip.uart = none) :
    (finalState (memory layout request chip)).uart = none := by
  refine Program.trace_induction (motive := fun _ before after =>
    before.uart = none → after.uart = none) ?_ ?_ (layout.access request) chip h
  · intro chip h
    exact h
  · intro request rest before after hrest h
    exact hrest (uart_bus request h)

/-- No program on memory attaches a UART. -/
theorem uart_handle (program : Program Memory α) {chip : Chip} (h : chip.uart = none) :
    (finalState (program.handle (memory layout) chip)).uart = none := by
  refine Program.trace_induction (motive := fun _ before after =>
    before.uart = none → after.uart = none) ?_ ?_ program chip h
  · intro chip h
    exact h
  · intro request rest before after hrest h
    exact hrest (uart_memory request h)

/-! ### Reads leave the chip as it was -/

/-- A reading cycle that does not receive leaves the chip as it was, but for the count. -/
theorem readCycle_recounted {chip : Chip} {address : UInt32} (h : ¬ Receives layout chip address) :
    ∃ answer after, (layout.readCycle (layout.route address)).handle bus chip = .ok answer after ∧
      Recounted after chip := by
  cases hcell : cell? layout chip address with
  | some cell =>
    -- The cell is not the receive register, so reading it takes nothing from a queue.
    have hbase : ∀ queues ∈ chip.uart, queues.base ≠ cell := by
      rintro queues hqueues rfl
      exact h ⟨queues, hqueues, hcell⟩
    obtain ⟨count, hcycle⟩ := handle_readCycle_cell hcell
    rw [load_of_not_base hbase] at hcycle
    exact ⟨_, _, hcycle, .switched chip count⟩
  | none =>
    cases hroute : layout.route address with
    | window page offset => cases hpaging : layout.paging <;> simp [cell?, hroute, hpaging] at hcell
    | nowhere => exact ⟨0, chip, rfl, .refl chip⟩
    | code offset => exact ⟨_, chip, rfl, .refl chip⟩
    | register index => exact ⟨_, chip, rfl, .refl chip⟩

/-- **A read that takes nothing leaves the chip as it was,** also where a band has to be switched on
for it. -/
theorem memory_read_recounted {chip : Chip} {address : UInt32}
    (h : ¬ Receives layout chip address) :
    ∃ answer after, memory layout (.read address) chip = .ok answer after ∧
      Recounted after chip := by
  obtain ⟨registers, hframe⟩ := chip.opened_frame layout address
  have hopened : ¬ Receives layout (chip.opened layout address) address := by
    rw [hframe]
    exact h
  obtain ⟨answer, after, hcycle, hafter⟩ := readCycle_recounted hopened
  rw [hafter.eq] at hcycle
  refine ⟨answer, { chip with pageSwitches := after.pageSwitches }, memory_of_opened ?_, rfl⟩
  refine hcycle.trans (congrArg _ ?_)
  show (chip.opened layout address).turned _ _ =
    { chip with registers := (chip.opened layout address).registers, pageSwitches := _ }
  rw [hframe]
  rfl

end Chip

end DebugMonitor.Sim
