import DebugMonitor.Proofs.Bulk.Serving
import DebugMonitor.Proofs.Memory.DataCell

/-!
# Blocks of plain data

Where neither a UART nor a lock is in the way, a byte that is written to plain data is there, and
nothing else has changed (`handle_write_plain`). So a block that is written byte by byte can be read
back byte by byte (`handle_readEach_writeEach`), whether it lies behind the power gate, behind the
window or across the edges of either.
-/

namespace DebugMonitor.Sim.Chip

/-- No UART and no lock stand before the data. -/
structure Clear (layout : Layout) (chip : Chip) : Prop where
  fits : layout.Fits chip
  uart_none : chip.uart = none
  locked_none : chip.locked = none

variable {layout : Layout} {chip : Chip} {address : UInt32}

/-- The chip with another count of page switches. -/
def counting (chip : Chip) (switches : Nat) : Chip := { chip with pageSwitches := switches }

theorem Clear.counting (h : Clear layout chip) (switches : Nat) :
    Clear layout (chip.counting switches) :=
  ⟨h.fits.of_page rfl, h.uart_none, h.locked_none⟩

theorem Clear.poke (h : Clear layout chip) (address : UInt32) (value : UInt8) :
    Clear layout (chip.poke address value) :=
  ⟨h.fits.of_page rfl, h.uart_none, h.locked_none⟩

/-! ### Bytes -/

/-- On a clear chip every address of plain data is a cell. -/
theorem Clear.isCell (h : Clear layout chip) (hplain : layout.Plain address.toNat) :
    chip.IsCell layout address where
  seen := (cell?_eq_some_iff h.fits address address).mpr hplain.locate_eq
  uncovered := by simp [uartRegister?, h.uart_none]
  reachable := by
    obtain ⟨registers, hframe⟩ := chip.opened_frame layout address
    rw [hframe]
    have hunlocked : ({ chip with registers } : Chip).locked = none := h.locked_none
    exact reachable_of_unlocked hunlocked address

/-- A plain byte is read as it is. -/
theorem handle_read_plain (h : Clear layout chip) (hplain : layout.Plain address.toNat) :
    ∃ switches, (Memory.read address).handle (memory layout) chip =
      .ok (chip.peek address) (chip.counting switches) :=
  handle_read_cell (h.isCell hplain)

theorem handle_write_plain (h : Clear layout chip) (hplain : layout.Plain address.toNat)
    (value : UInt8) :
    ∃ switches, (Memory.write address value).handle (memory layout) chip =
      .ok () ((chip.poke address value).counting switches) :=
  handle_write_cell (h.isCell hplain) value

/-! ### Blocks -/

/-- What lies in a block of cells. -/
def peekEach (chip : Chip) (address : UInt32) (count : Nat) : Bytes :=
  (List.range count).map fun i => chip.peek (address + i.toUInt32)

theorem peekEach_succ (chip : Chip) (address : UInt32) (count : Nat) :
    chip.peekEach address (count + 1) =
      chip.peekEach address count ++ [chip.peek (address + count.toUInt32)] := by
  rw [peekEach, List.range_succ, List.map_append]
  rfl

/-- A block of plain data is read as its bytes are. -/
theorem handle_readEach_plain (h : Clear layout chip) {count : Nat}
    (hplain : ∀ i < count, layout.Plain (address.toNat + i)) :
    ∃ switches, (Memory.readEach address count).handle (memory layout) chip =
      .ok (chip.peekEach address count) (chip.counting switches) := by
  induction count with
  | zero => exact ⟨chip.pageSwitches, rfl⟩
  | succ count ih =>
    obtain ⟨before, hbefore⟩ := ih fun i hi => hplain i (Nat.lt_succ_of_lt hi)
    have hlast := hplain count (Nat.lt_succ_self count)
    rw [← hlast.toNat_add] at hlast
    obtain ⟨switches, hread⟩ := handle_read_plain (h.counting before) hlast
    refine ⟨switches, ?_⟩
    rw [Memory.readEach_add, Memory.readEach_one, Program.handle_bind_ok hbefore]
    simp only [bind_assoc, pure_bind]
    rw [Program.handle_bind_ok hread, peekEach_succ]
    rfl

/-- The bytes of a block are written, and are then in its cells. -/
theorem handle_writeEach_plain (h : Clear layout chip) {bytes : Bytes}
    (hplain : ∀ i < bytes.length, layout.Plain (address.toNat + i)) :
    ∃ after, (Memory.writeEach address bytes).handle (memory layout) chip = .ok () after ∧
      Clear layout after ∧ after.peekEach address bytes.length = bytes := by
  -- By induction on the end of the block, which is the byte that was written last.
  induction bytes using List.reverseRecOn with
  | nil => exact ⟨chip, rfl, h, rfl⟩
  | append_singleton bytes b ih =>
    rw [List.length_append, List.length_singleton] at hplain ⊢
    obtain ⟨before, hbefore, hclear, hpeek⟩ := ih fun i hi => hplain i (Nat.lt_succ_of_lt hi)
    have hlast := hplain bytes.length (Nat.lt_succ_self _)
    have hsum := hlast.toNat_add
    rw [← hsum] at hlast
    obtain ⟨switches, hwrite⟩ := handle_write_plain hclear hlast b
    let last := address + bytes.length.toUInt32
    refine ⟨(before.poke last b).counting switches, ?_, (hclear.poke last b).counting switches, ?_⟩
    · rw [Memory.writeEach_concat, Program.handle_bind_ok hbefore, hwrite]
    · rw [peekEach_succ]
      congr 1
      · -- The last byte goes behind all the others.
        refine Eq.trans (List.map_congr_left fun i hi => ?_) hpeek
        have hlt := List.mem_range.mp hi
        have hfirst := (hplain i (Nat.lt_succ_of_lt hlt)).toNat_add
        have hne : last ≠ address + i.toUInt32 := by
          rw [Ne, ← UInt32.toNat_inj, hsum, hfirst]
          omega
        show (before.poke last b).peek (address + i.toUInt32) = before.peek (address + i.toUInt32)
        rw [peek_poke, if_neg hne]
      · show [(before.poke last b).peek last] = [b]
        rw [peek_poke, if_pos rfl]

/-- **What was written can be read back.** -/
theorem handle_readEach_writeEach (h : Clear layout chip) {bytes : Bytes}
    (hplain : ∀ i < bytes.length, layout.Plain (address.toNat + i)) :
    ∃ after, (Memory.writeEach address bytes >>= fun _ =>
        Memory.readEach address bytes.length).handle (memory layout) chip = .ok bytes after := by
  obtain ⟨written, hwrite, hclear, hpeek⟩ := handle_writeEach_plain h hplain
  obtain ⟨switches, hread⟩ := handle_readEach_plain hclear hplain
  refine ⟨written.counting switches, ?_⟩
  rw [Program.handle_bind_ok hwrite, hread, hpeek]

end DebugMonitor.Sim.Chip
