import DebugMonitor.Proofs.Memory.UartBlock

/-!
# The data under an attached UART

A chip with a UART and the same chip without one differ in two things: the queues, and the data
cells that lie under the registers of the UART and cannot be seen while it is there. An access that
stays away from these registers knows of neither, so it does the same on both chips
(`inStep_memory_covered`). The line settings may be programmed too. They go into the UART on one
chip and into a data cell on the other, and nothing outside the block shows it.
-/

namespace DebugMonitor

open Sim

/-- Stays away from the registers of the UART, or programs its line settings. -/
def Uart.Spares (base : UInt32) (request : Memory.Request) : Prop :=
  Uart.Outside base request.address ∨
    ∃ value, request = .write (base + Uart.lineControl) value

namespace Sim.Chip

variable {layout : Layout} {base : UInt32} {sent : Bytes} {wired bare : Chip}

/-- The chip on the left has a UART with nothing to receive, and the one on the right has none. -/
structure Covered (layout : Layout) (base : UInt32) (sent : Bytes) (wired bare : Chip) : Prop where
  fits : layout.Fits bare
  uart_none : bare.uart = none
  uart_eq : ∃ lineControl, wired.uart = some { base, sent, lineControl }
  frame : wired =
    { bare with data := wired.data, uart := wired.uart, pageSwitches := wired.pageSwitches }
  peek_eq : ∀ address, Uart.Outside base address → wired.peek address = bare.peek address

namespace Covered

theorem wired_fits (h : Covered layout base sent wired bare) : layout.Fits wired := by
  rw [h.frame]
  exact h.fits.of_page rfl

/-- The lock bars the same addresses on both chips. -/
theorem reachable_eq (h : Covered layout base sent wired bare) (address : UInt32) :
    wired.reachable address = bare.reachable address := by
  rw [h.frame]
  rfl

theorem uartRegister?_bare (h : Covered layout base sent wired bare) (address : UInt32) :
    bare.uartRegister? address = none := by
  rw [uartRegister?, h.uart_none]
  rfl

theorem switched (h : Covered layout base sent wired bare) (count : Nat) :
    Covered layout base sent (wired.switched count) (bare.switched count) where
  fits := h.fits.of_page rfl
  uart_none := h.uart_none
  uart_eq := h.uart_eq
  frame := by
    rw [h.frame]
    rfl
  peek_eq := h.peek_eq

theorem setRegister (h : Covered layout base sent wired bare) (index value : UInt8) :
    Covered layout base sent (wired.setRegister index value) (bare.setRegister index value) where
  fits := h.fits.of_page rfl
  uart_none := h.uart_none
  uart_eq := h.uart_eq
  frame := by
    rw [h.frame]
    rfl
  peek_eq := h.peek_eq

theorem writeRegister (h : Covered layout base sent wired bare) (index value : UInt8) :
    Covered layout base sent (wired.writeRegister index value)
      (bare.writeRegister index value) := by
  simp only [Chip.writeRegister]
  split
  · exact h.setRegister index value
  · exact h

/-- The driver may move bytes through the queues. -/
theorem rewired (h : Covered layout base sent wired bare) (sent : Bytes) (lineControl : UInt8)
    (switches : Nat) :
    Covered layout base sent (wired.rewired { base, sent, lineControl } switches) bare where
  fits := h.fits
  uart_none := h.uart_none
  uart_eq := ⟨lineControl, rfl⟩
  frame := by
    rw [h.frame]
    rfl
  peek_eq := h.peek_eq

/-! ### One access -/

theorem load (hshows : layout.Shows base) (h : Covered layout base sent wired bare)
    {address : UInt32} (houtside : Uart.Outside base address) :
    (wired.load address).1 = (bare.load address).1 ∧
      Covered layout base sent (wired.load address).2 (bare.load address).2 := by
  obtain ⟨lineControl, huart⟩ := h.uart_eq
  have hload : bare.load address =
      (if bare.reachable address then bare.peek address else 0, bare) := by
    rw [Chip.load, h.uartRegister?_bare]
  have hqueues : layout.Shows ({ base, sent, lineControl } : UartQueues).base := hshows
  rw [load_of_outside hqueues huart houtside, hload, h.reachable_eq, h.peek_eq address houtside]
  exact ⟨rfl, h⟩

theorem poke (h : Covered layout base sent wired bare) (address : UInt32) (value : UInt8) :
    Covered layout base sent (wired.poke address value) (bare.poke address value) where
  fits := h.fits.of_page rfl
  uart_none := h.uart_none
  uart_eq := h.uart_eq
  frame := by
    rw [h.frame]
    rfl
  peek_eq other houtside := by
    rw [peek_poke, peek_poke, h.peek_eq other houtside]

theorem store (hshows : layout.Shows base) (h : Covered layout base sent wired bare)
    {address : UInt32} (houtside : Uart.Outside base address) (value : UInt8) :
    Covered layout base sent (wired.store address value) (bare.store address value) := by
  obtain ⟨lineControl, huart⟩ := h.uart_eq
  have hqueues : layout.Shows ({ base, sent, lineControl } : UartQueues).base := hshows
  rw [store_of_outside hqueues huart houtside, Chip.store, h.uartRegister?_bare, h.reachable_eq]
  show Covered _ _ _ _ (if bare.reachable address then _ else _)
  cases bare.reachable address with
  | true => exact h.poke address value
  | false => exact h

/-- A cell under the registers is set on one chip only. -/
theorem poke_bare (hshows : layout.Shows base) (h : Covered layout base sent wired bare)
    {register : UInt32} (hregister : register ≤ Uart.lastRegister) (value : UInt8) :
    Covered layout base sent wired (bare.poke (base + register) value) where
  fits := h.fits.of_page rfl
  uart_none := h.uart_none
  uart_eq := h.uart_eq
  frame := h.frame
  peek_eq address houtside := by
    have hne : base + register ≠ address := by
      rintro rfl
      have hsum := hshows.toNat_add hregister
      have hlast := hshows.toNat_add (UInt32.le_refl Uart.lastRegister)
      rw [UInt32.le_iff_toNat_le] at hregister
      simp only [Uart.Outside, UInt32.lt_iff_toNat_lt] at houtside
      omega
    rw [peek_poke, if_neg hne, h.peek_eq address houtside]

/-- The line settings go to the UART of one chip, and to the cell under it on the other. -/
theorem store_lineControl (hshows : layout.Shows base) (h : Covered layout base sent wired bare)
    (value : UInt8) :
    Covered layout base sent (wired.store (base + Uart.lineControl) value)
      (bare.store (base + Uart.lineControl) value) := by
  obtain ⟨lineControl, huart⟩ := h.uart_eq
  have hprogrammed := h.rewired sent value wired.pageSwitches
  have hqueues : layout.Shows ({ base, sent, lineControl } : UartQueues).base := hshows
  have hcontrol : Uart.lineControl ≤ Uart.lastRegister := by decide
  rw [store_register hqueues huart hcontrol, Chip.store, h.uartRegister?_bare]
  show Covered _ _ _ _ (if bare.reachable (base + Uart.lineControl) then _ else _)
  cases bare.reachable (base + Uart.lineControl) with
  | true => exact hprogrammed.poke_bare hshows (by decide) value
  | false => exact hprogrammed

/-- What spares the block does the same on both chips. -/
theorem direct (hshows : layout.Shows base) (h : Covered layout base sent wired bare)
    {request : Memory.Request} (hspares : Uart.Spares base request) :
    (wired.direct (layout.locate request.address) request).1 =
        (bare.direct (layout.locate request.address) request).1 ∧
      Covered layout base sent (wired.direct (layout.locate request.address) request).2
        (bare.direct (layout.locate request.address) request).2 := by
  -- A request that spares the block stays outside, or it sets the line.
  rcases hspares with houtside | ⟨value, rfl⟩
  · cases hlocation : layout.locate request.address with
    | data address =>
      obtain rfl := Layout.eq_of_locate_eq_data hlocation
      cases request with
      | read address => exact h.load hshows houtside
      | write address value => exact ⟨rfl, h.store hshows houtside value⟩
    | void => cases request <;> exact ⟨rfl, h⟩
    | code offset =>
      cases request with
      | read address =>
        refine ⟨?_, h⟩
        rw [h.frame]
        rfl
      | write address value => exact ⟨rfl, h⟩
    | sfr index =>
      cases request with
      | read address =>
        refine ⟨?_, h⟩
        rw [h.frame]
        rfl
      | write address value => exact ⟨rfl, h.setRegister index value⟩
  · have hlocate : layout.locate (Memory.Request.write (base + Uart.lineControl) value).address =
        .data (base + Uart.lineControl) := hshows.locate_eq (by decide)
    rw [hlocate]
    exact ⟨rfl, h.store_lineControl hshows value⟩

end Covered

/-- **What the UART covers is no matter to an access elsewhere.** -/
theorem inStep_memory_covered (hshows : layout.Shows base) (request : Memory.Request)
    (hspares : Uart.Spares base request) :
    InStep (Covered layout base sent) (memory layout request) (memory layout request) := by
  refine inStep_memory_of_direct ?_ ?_ ?_ ?_ ?_
  · exact fun wired bare h => ⟨h.wired_fits, h.fits⟩
  · intro wired bare h index
    rw [h.frame]
    rfl
  · exact fun wired bare h index value => h.writeRegister index value
  · exact fun wired bare h count => h.switched count
  · exact fun wired bare h => h.direct hshows hspares

end Sim.Chip

end DebugMonitor
