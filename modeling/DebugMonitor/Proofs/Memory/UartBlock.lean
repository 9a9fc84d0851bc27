import DebugMonitor.Proofs.Memory.Bracket
import DebugMonitor.Proofs.Trace

/-!
# The registers of an attached UART

The UART's registers lie among the data. An access to one of them goes through the page bracket and
perhaps through the power bracket like any other, and yet all it leaves behind is what the register
does to the queues (`memory_rewired`). The driver on top of that moves bytes from one queue and to
the other (`handle_receive`, `handle_send`), or gives up if no byte comes.

Accesses outside the block know nothing of the queues: with others in their place, they do the same
(`inStep_memory_rewired`).
-/

namespace DebugMonitor

open Sim

/-- An address that belongs to no register of a UART. -/
def Uart.Outside (base address : UInt32) : Prop :=
  address < base ∨ base + Uart.lastRegister < address

instance (base address : UInt32) : Decidable (Uart.Outside base address) :=
  inferInstanceAs (Decidable (_ ∨ _))

/-- The layout has a place for a UART: its registers are data that can be seen. -/
structure Layout.Shows (layout : Layout) (base : UInt32) : Prop where
  lt_codeStart : base.toNat + 6 < layout.codeStart.toNat
  lt_window : layout.paging = .unified → base.toNat + 6 < 0x10000

/-- The block does not wrap round. -/
theorem Layout.Shows.toNat_add {layout : Layout} {base : UInt32} (h : layout.Shows base)
    {register : UInt32} (hregister : register ≤ Uart.lastRegister) :
    (base + register).toNat = base.toNat + register.toNat := by
  have hlast : register.toNat ≤ 6 := UInt32.le_iff_toNat_le.mp hregister
  have hlt := h.lt_codeStart
  have hcode : layout.codeStart.toNat < 2 ^ 32 := layout.codeStart.toNat_lt
  rw [UInt32.toNat_add, Nat.mod_eq_of_lt (by omega)]

/-- The registers of the block lie in plain data. -/
theorem Layout.Shows.plain {layout : Layout} {base : UInt32} (h : layout.Shows base)
    {register : UInt32} (hregister : register ≤ Uart.lastRegister) :
    layout.Plain (base + register).toNat := by
  have hlast : register.toNat ≤ 6 := UInt32.le_iff_toNat_le.mp hregister
  rw [h.toNat_add hregister]
  refine ⟨?_, fun hpaging => ?_⟩
  · have hlt := h.lt_codeStart
    omega
  · have hlt := h.lt_window hpaging
    omega

theorem Layout.Shows.locate_eq {layout : Layout} {base : UInt32} (h : layout.Shows base)
    {register : UInt32} (hregister : register ≤ Uart.lastRegister) :
    layout.locate (base + register) = .data (base + register) :=
  (h.plain hregister).locate_eq

namespace Sim.UartQueues

variable {layout : Layout} {queues : UartQueues}

/-- The registers are where the block says. -/
theorem register?_add (h : layout.Shows queues.base) {register : UInt32}
    (hregister : register ≤ Uart.lastRegister) :
    queues.register? (queues.base + register) = some register :=
  register?_eq_some_iff.mpr ⟨h.toNat_add hregister, hregister⟩

theorem register?_of_outside (h : layout.Shows queues.base) {address : UInt32}
    (houtside : Uart.Outside queues.base address) : queues.register? address = none := by
  cases hregister : queues.register? address with
  | none => rfl
  | some register =>
    obtain ⟨hplace, hlast⟩ := register?_eq_some_iff.mp hregister
    have hend := h.toNat_add (UInt32.le_refl Uart.lastRegister)
    rw [UInt32.le_iff_toNat_le] at hlast
    rcases houtside with hbefore | hbehind
    · rw [UInt32.lt_iff_toNat_lt] at hbefore
      omega
    · rw [UInt32.lt_iff_toNat_lt] at hbehind
      omega

end Sim.UartQueues

namespace Sim.Chip

variable {layout : Layout} {chip : Chip} {queues others : UartQueues}

/-- The chip with these queues in its UART, and another count of page switches. -/
def rewired (chip : Chip) (queues : UartQueues) (switches : Nat) : Chip :=
  { chip with uart := some queues, pageSwitches := switches }

theorem uart_rewired (chip : Chip) (queues : UartQueues) (switches : Nat) :
    (chip.rewired queues switches).uart = some queues := rfl

theorem fits_rewired (hfits : layout.Fits chip) (queues : UartQueues) (switches : Nat) :
    layout.Fits (chip.rewired queues switches) := hfits.of_page rfl

theorem rewired_self (huart : chip.uart = some queues) :
    chip.rewired queues chip.pageSwitches = chip := by
  rw [rewired, ← huart]

/-! ### Registers of the block -/

section

variable {address register : UInt32} (huart : chip.uart = some queues)

include huart

theorem load_of_some (h : queues.register? address = some register) :
    chip.load address =
      ((queues.load register).1, { chip with uart := some (queues.load register).2 }) := by
  have hfound : chip.uartRegister? address = some (queues, register) := by
    simp [uartRegister?, huart, h]
  rw [load, hfound]

theorem store_of_some (h : queues.register? address = some register) (value : UInt8) :
    chip.store address value = { chip with uart := some (queues.store register value) } := by
  have hfound : chip.uartRegister? address = some (queues, register) := by
    simp [uartRegister?, huart, h]
  rw [store, hfound]

theorem load_of_none (h : queues.register? address = none) :
    chip.load address = (if chip.reachable address then chip.peek address else 0, chip) := by
  have hnone : chip.uartRegister? address = none := by simp [uartRegister?, huart, h]
  rw [load, hnone]

theorem store_of_none (h : queues.register? address = none) (value : UInt8) :
    chip.store address value =
      if chip.reachable address then chip.poke address value else chip := by
  have hnone : chip.uartRegister? address = none := by simp [uartRegister?, huart, h]
  rw [store, hnone]

end

theorem load_register (hshows : layout.Shows queues.base) (huart : chip.uart = some queues)
    {register : UInt32} (hregister : register ≤ Uart.lastRegister) :
    chip.load (queues.base + register) =
      ((queues.load register).1, { chip with uart := some (queues.load register).2 }) :=
  load_of_some huart (UartQueues.register?_add hshows hregister)

theorem store_register (hshows : layout.Shows queues.base) (huart : chip.uart = some queues)
    {register : UInt32} (hregister : register ≤ Uart.lastRegister) (value : UInt8) :
    chip.store (queues.base + register) value =
      { chip with uart := some (queues.store register value) } :=
  store_of_some huart (UartQueues.register?_add hshows hregister) value

/-- An access that does no more than exchange the queues, between its brackets. -/
theorem memory_rewired (request : Memory.Request) (hfits : layout.Fits chip)
    (huart : chip.uart = some queues) {location : Location}
    (hlocate : layout.locate request.address = location) {answer : request.Answer}
    (hdirect : ∀ other : Chip, other.uart = some queues →
      other.direct location request = (answer, { other with uart := some others })) :
    ∃ switches, memory layout request chip = .ok answer (chip.rewired others switches) := by
  have hregisters : ∀ registers,
      ({ chip with registers } : Chip).direct (layout.locate request.address) request =
        (answer, { chip with registers, uart := some others }) := by
    intro registers
    rw [hlocate]
    exact hdirect _ huart
  exact memory_of_direct request hfits { chip with uart := some others } hregisters

/-- Reading a register asks the UART, and page switches are counted. -/
theorem handle_read_register (hfits : layout.Fits chip) (hshows : layout.Shows queues.base)
    (huart : chip.uart = some queues) {register : UInt32}
    (hregister : register ≤ Uart.lastRegister) :
    ∃ switches, (Memory.read (queues.base + register)).handle (memory layout) chip =
      .ok (queues.load register).1 (chip.rewired (queues.load register).2 switches) := by
  rw [Memory.read, Memory.ask, Program.handle_ask]
  refine memory_rewired (.read _) hfits huart (hshows.locate_eq hregister) ?_
  exact fun other huart => load_register hshows huart hregister

theorem handle_write_register (hfits : layout.Fits chip) (hshows : layout.Shows queues.base)
    (huart : chip.uart = some queues) {register : UInt32} (hregister : register ≤ Uart.lastRegister)
    (value : UInt8) :
    ∃ switches, (Memory.write (queues.base + register) value).handle (memory layout) chip =
      .ok () (chip.rewired (queues.store register value) switches) := by
  rw [Memory.write, Memory.ask, Program.handle_ask]
  refine memory_rewired (.write _ _) hfits huart (hshows.locate_eq hregister) ?_
  exact fun other huart => congrArg (Prod.mk ()) (store_register hshows huart hregister value)

/-! ### The driver -/

variable {register : UInt32} {report enough : UInt8}

/-- A report that is good enough is read once. -/
theorem handle_await (hfits : layout.Fits chip) (hshows : layout.Shows queues.base)
    (huart : chip.uart = some queues) (hregister : register ≤ Uart.lastRegister)
    (hload : queues.load register = (report, queues)) (henough : ¬ report < enough)
    (patience : Nat) :
    ∃ switches, (Uart.await (queues.base + register) enough (patience + 1)).handle (memory layout)
      chip = .ok () (chip.rewired queues switches) := by
  obtain ⟨switches, hread⟩ := handle_read_register hfits hshows huart hregister
  rw [hload] at hread
  refine ⟨switches, ?_⟩
  rw [Uart.await, Program.handle_bind_ok hread, if_neg henough]
  rfl

/-- A report that stays too low is read until the driver gives up. -/
theorem handle_await_low (hfits : layout.Fits chip) (hshows : layout.Shows queues.base)
    (huart : chip.uart = some queues) (hregister : register ≤ Uart.lastRegister)
    (hload : queues.load register = (report, queues)) (hlow : report < enough) (patience : Nat) :
    ∃ switches, (Uart.await (queues.base + register) enough patience).handle (memory layout) chip =
      .error .stalled (chip.rewired queues switches) := by
  induction patience generalizing chip with
  | zero => exact ⟨chip.pageSwitches, congrArg _ (rewired_self huart).symm⟩
  | succ patience ih =>
    obtain ⟨once, hread⟩ := handle_read_register hfits hshows huart hregister
    rw [hload] at hread
    obtain ⟨switches, hrest⟩ :=
      ih (fits_rewired hfits queues once) (uart_rewired chip queues once)
    refine ⟨switches, ?_⟩
    rw [Uart.await, Program.handle_bind_ok hread, if_pos hlow]
    exact hrest

/-- The fill level is cut off at a byte's width, so that it is never mistaken for zero. -/
theorem toNat_level (received : Bytes) :
    (min received.length 255).toUInt8.toNat = min 255 received.length := by
  show min received.length 255 % 256 = _
  rw [Nat.mod_eq_of_lt (by omega), Nat.min_comm]

/-- The level is zero if, and only if, nothing is there. -/
theorem level_lt_one_iff (received : Bytes) :
    (min received.length 255).toUInt8 < 1 ↔ received = [] := by
  rw [UInt8.lt_iff_toNat_lt, toNat_level]
  show min 255 received.length < 1 ↔ _
  cases received with
  | nil => simp
  | cons byte rest => simp

/-- Receiving takes the first byte out of the queue, at the first attempt. -/
theorem handle_receive (hfits : layout.Fits chip) (hshows : layout.Shows queues.base)
    (huart : chip.uart = some queues) {byte : UInt8} {rest : Bytes}
    (hreceived : queues.received = byte :: rest) (patience : Nat) :
    ∃ switches, (Uart.channel queues.base (patience + 1) .receive).handle (memory layout) chip =
      .ok byte (chip.rewired { queues with received := rest } switches) := by
  have hlevel : ¬ (min queues.received.length 255).toUInt8 < 1 := by
    rw [level_lt_one_iff, hreceived]
    exact List.cons_ne_nil byte rest
  have hreport : Uart.receiveLevel ≤ Uart.lastRegister := by decide
  have hbuffer : Uart.receiveBuffer ≤ Uart.lastRegister := by decide
  obtain ⟨once, hawait⟩ := handle_await hfits hshows huart hreport rfl hlevel patience
  obtain ⟨switches, hread⟩ := handle_read_register (fits_rewired hfits queues once) hshows
    (uart_rewired chip queues once) hbuffer
  refine ⟨switches, ?_⟩
  rw [Uart.channel, Program.handle_bind_ok hawait, hread]
  simp [UartQueues.load, hreceived, rewired]

/-- Where nothing was received, the driver waits in vain. -/
theorem handle_receive_nil (hfits : layout.Fits chip) (hshows : layout.Shows queues.base)
    (huart : chip.uart = some queues) (hreceived : queues.received = []) (patience : Nat) :
    ∃ switches, (Uart.channel queues.base patience .receive).handle (memory layout) chip =
      .error .stalled (chip.rewired queues switches) := by
  have hlevel : (min queues.received.length 255).toUInt8 < 1 := (level_lt_one_iff _).mpr hreceived
  have hreport : Uart.receiveLevel ≤ Uart.lastRegister := by decide
  obtain ⟨switches, hawait⟩ := handle_await_low hfits hshows huart hreport rfl hlevel patience
  refine ⟨switches, ?_⟩
  rw [Uart.channel, Program.handle_bind_error hawait]

/-- Sending appends a byte, at the first attempt. -/
theorem handle_send (hfits : layout.Fits chip) (hshows : layout.Shows queues.base)
    (huart : chip.uart = some queues) (byte : UInt8) (patience : Nat) :
    ∃ switches, (Uart.channel queues.base (patience + 1) (.send byte)).handle (memory layout) chip =
      .ok () (chip.rewired { queues with sent := byte :: queues.sent } switches) := by
  have hreport : Uart.transmitRoom ≤ Uart.lastRegister := by decide
  have hholding : Uart.transmitHolding ≤ Uart.lastRegister := by decide
  have hroom : ¬ UartQueues.room < Uart.roomToSend := by decide
  obtain ⟨once, hawait⟩ := handle_await hfits hshows huart hreport rfl hroom patience
  obtain ⟨switches, hwrite⟩ := handle_write_register (fits_rewired hfits queues once) hshows
    (uart_rewired chip queues once) hholding byte
  refine ⟨switches, ?_⟩
  rw [Uart.channel, Program.handle_bind_ok hawait, hwrite]
  rfl

/-- The transmit queue never fills, so it counts as drained at all times. -/
theorem handle_flush (hfits : layout.Fits chip) (hshows : layout.Shows queues.base)
    (huart : chip.uart = some queues) (patience : Nat) :
    ∃ switches, (Uart.channel queues.base (patience + 1) .flush).handle (memory layout) chip =
      .ok () (chip.rewired queues switches) := by
  have hreport : Uart.transmitRoom ≤ Uart.lastRegister := by decide
  have hroom : ¬ UartQueues.room < Uart.roomWhenDrained := by decide
  exact handle_await hfits hshows huart hreport rfl hroom patience

/-! ### Accesses outside the block -/

theorem load_of_outside (hshows : layout.Shows queues.base) (huart : chip.uart = some queues)
    {address : UInt32} (houtside : Uart.Outside queues.base address) :
    chip.load address = (if chip.reachable address then chip.peek address else 0, chip) :=
  load_of_none huart (UartQueues.register?_of_outside hshows houtside)

theorem store_of_outside (hshows : layout.Shows queues.base) (huart : chip.uart = some queues)
    {address : UInt32} (houtside : Uart.Outside queues.base address) (value : UInt8) :
    chip.store address value =
      if chip.reachable address then chip.poke address value else chip :=
  store_of_none huart (UartQueues.register?_of_outside hshows houtside) value

/-- Two chips whose UARTs hold different queues, and that may have written the page register
differently often. -/
structure Rewired (layout : Layout) (queues others : UartQueues) (left right : Chip) : Prop where
  fits : layout.Fits right
  uart_eq : right.uart = some others
  left_eq : left = right.rewired queues left.pageSwitches

variable {left right : Chip}

theorem Rewired.load (h : Rewired layout queues others left right)
    (hshows : layout.Shows queues.base) (hbase : others.base = queues.base) {address : UInt32}
    (houtside : Uart.Outside queues.base address) :
    (left.load address).1 = (right.load address).1 ∧
      Rewired layout queues others (left.load address).2 (right.load address).2 := by
  have hleft : left.uart = some queues := by rw [h.left_eq]; rfl
  rw [load_of_outside hshows hleft houtside,
    load_of_outside (hbase ▸ hshows) h.uart_eq (hbase ▸ houtside)]
  refine ⟨?_, h⟩
  rw [h.left_eq]
  rfl

theorem Rewired.store (h : Rewired layout queues others left right)
    (hshows : layout.Shows queues.base) (hbase : others.base = queues.base) {address : UInt32}
    (houtside : Uart.Outside queues.base address) (value : UInt8) :
    Rewired layout queues others (left.store address value) (right.store address value) := by
  have hleft : left.uart = some queues := by rw [h.left_eq]; rfl
  have hreachable : left.reachable address = right.reachable address := by
    rw [h.left_eq]
    rfl
  rw [store_of_outside hshows hleft houtside,
    store_of_outside (hbase ▸ hshows) h.uart_eq (hbase ▸ houtside), hreachable]
  cases right.reachable address with
  | true => exact ⟨h.fits.of_page rfl, h.uart_eq, congrArg (poke · address value) h.left_eq⟩
  | false => exact h

/-- What stays beside the block does the same on both chips. -/
theorem Rewired.direct (h : Rewired layout queues others left right)
    (hshows : layout.Shows queues.base) (hbase : others.base = queues.base)
    {request : Memory.Request} (houtside : Uart.Outside queues.base request.address) :
    (left.direct (layout.locate request.address) request).1 =
        (right.direct (layout.locate request.address) request).1 ∧
      Rewired layout queues others (left.direct (layout.locate request.address) request).2
        (right.direct (layout.locate request.address) request).2 := by
  -- The queues belong to data only, and there only to the block.
  cases hlocation : layout.locate request.address with
  | data address =>
    obtain rfl := Layout.eq_of_locate_eq_data hlocation
    cases request with
    | read address => exact h.load hshows hbase houtside
    | write address value => exact ⟨rfl, h.store hshows hbase houtside value⟩
  | void => cases request <;> exact ⟨rfl, h⟩
  | code offset =>
    cases request with
    | read address =>
      refine ⟨?_, h⟩
      rw [h.left_eq]
      rfl
    | write address value => exact ⟨rfl, h⟩
  | sfr index =>
    cases request with
    | read address =>
      refine ⟨?_, h⟩
      rw [h.left_eq]
      rfl
    | write address value =>
      exact ⟨rfl, h.fits.of_page rfl, h.uart_eq, congrArg (setRegister · index value) h.left_eq⟩

theorem Rewired.switched (h : Rewired layout queues others left right) (count : Nat) :
    Rewired layout queues others (left.switched count) (right.switched count) :=
  ⟨h.fits.of_page rfl, h.uart_eq, congrArg (Chip.switched · count) h.left_eq⟩

theorem Rewired.writeRegister (h : Rewired layout queues others left right) (index value : UInt8) :
    Rewired layout queues others (left.writeRegister index value)
      (right.writeRegister index value) := by
  simp only [Chip.writeRegister]
  split
  · exact ⟨h.fits.of_page rfl, h.uart_eq, congrArg (setRegister · index value) h.left_eq⟩
  · exact h

/-- **An access outside the block does not depend on what is in the queues.** -/
theorem inStep_memory_rewired (hshows : layout.Shows queues.base)
    (hbase : others.base = queues.base) {request : Memory.Request}
    (houtside : Uart.Outside queues.base request.address) :
    InStep (Rewired layout queues others) (memory layout request) (memory layout request) := by
  refine inStep_memory_of_direct ?_ ?_ ?_ ?_ ?_
  · intro left right h
    exact ⟨by rw [h.left_eq]; exact h.fits.of_page rfl, h.fits⟩
  · intro left right h index
    rw [h.left_eq]
    rfl
  · exact fun left right h index value => h.writeRegister index value
  · exact fun left right h count => h.switched count
  · exact fun left right h => h.direct hshows hbase houtside

end Sim.Chip

end DebugMonitor
