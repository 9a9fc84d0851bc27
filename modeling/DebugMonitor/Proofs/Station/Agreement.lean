import DebugMonitor.Proofs.Console.Execution
import DebugMonitor.Proofs.Station.BulkServing
import DebugMonitor.Proofs.Station.Looking

/-!
# Command lines and bulk requests agree

A value can be read and changed in two ways: by a command line, in which address and value are
numerals, and by a bulk request, in which they are raw bytes. Both come down to the same accesses,
whatever the numerals look like and wherever the address leads (`execute_agrees`). Reading leaves
the same chip, and the numeral that is printed stands for the bytes that are sent; writing leaves
the same chip, for all that the command line also shows the value before and after.
-/

namespace DebugMonitor

open Sim
open Bulk (Item Session)

/-! ### A value in memory -/

namespace Memory

theorem readBytes_eq_readEach (address : UInt32) (count : Nat) :
    readBytes address count = readEach address count := by
  induction count generalizing address with
  | zero => rfl
  | succ count ih =>
    have hsplit := readEach_add address 1 count
    rw [Nat.add_comm, readEach_one] at hsplit
    rw [hsplit, readBytes]
    simp only [ih, bind_assoc, pure_bind]
    rfl

/-- So a read that returns has as many bytes to show. -/
theorem length_of_readEach {σ : Type} {h : Handler Memory (EStateM Stop σ)} {address : UInt32}
    {count : Nat} {s t : σ} {bytes : Bytes}
    (hread : (readEach address count).handle h s = .ok bytes t) : bytes.length = count := by
  have hlength := congrArg (fun p : Program Memory Nat => p.handle h s)
    (readEach_length address count)
  simp only [Program.handle_bind_ok hread] at hlength
  cases hlength
  rfl

end Memory

namespace Width

/-- How many bytes a value takes up. -/
def size : Width → Nat
  | byte => 1
  | word => 4

/-- The bulk request that reads a value. -/
def readItem : Width → UInt32 → Item
  | byte, address => .readBlock address 1
  | word, address => .readWord address

/-- The bulk request that changes a value. -/
def writeItem : Width → UInt32 → UInt32 → Item
  | byte, address, value => .writeBlock address [value.toUInt8] (Nat.one_lt_two_pow (by omega))
  | word, address, value => .writeWord address value

theorem size_le (width : Width) : width.size ≤ 4 := by
  cases width <;> decide

theorem digits_le (width : Width) : width.digits ≤ Numeral.maxDigits := by
  cases width <;> decide

/-- A value is the numeral of its bytes. -/
theorem read_eq_readEach (width : Width) (address : UInt32) :
    width.read address =
      (Memory.readEach address width.size >>= fun bytes => pure (Word.ofBytes bytes)) := by
  cases width with
  | byte =>
    have hone : ∀ b : UInt8, Word.ofBytes [b] = b.toUInt32 := by
      intro b
      show b.toUInt32 ||| (0 : UInt32) <<< 8 = b.toUInt32
      simp
    rw [size, Memory.readEach_one, read, map_eq_pure_bind]
    simp only [bind_assoc, pure_bind, hone]
  | word => rw [size, ← Memory.readBytes_eq_readEach, read, Memory.readWord]

/-- The item of a read is served as a block of its size. -/
theorem serve_readItem (width : Width) (address : UInt32) :
    (width.readItem address).serve = Memory.readEach address width.size := by
  cases width with
  | byte => rfl
  | word => exact Memory.readWord_toBytes address

theorem serve_writeItem (width : Width) (address value : UInt32) :
    (width.writeItem address value).serve = (width.write address value >>= fun _ => pure []) := by
  cases width with
  | byte =>
    simp [writeItem, Item.serve, Memory.writeEach, write]
  | word => rfl

end Width

namespace Sim.Station

variable {layout : Layout} {station : Station}

/-! ### A bulk request -/

/-- What a quiet program does at any desk, it does at a station. -/
theorem handle_of_sends {α : Type} {p : Program Console α} (hp : Quiet p)
    {effect : Program Memory Bytes} {a : α}
    (hsends : Console.Sends p (effect >>= fun s => pure (a, s))) {s : Bytes} {chip : Chip}
    (h : effect.handle (Chip.memory layout) station.chip = .ok s chip) :
    p.handle (console layout direct) station = .ok a ((station.withChip chip).display s) := by
  obtain ⟨found, after, hrun, -⟩ := hp.returns layout station
  have hdesk := hsends (EStateM Stop Chip) layout Chip.bus station.desk
  rw [Layout.lower_bind, Program.handle_bind, bind_assoc] at hdesk
  exact handle_of_desk hrun hdesk h

/-- A fresh session that is fed an item serves it, and is fresh again. -/
theorem feedAll_item (own : Layout) (item : Item) {replies : Bytes} {chip : Chip}
    (h : item.serve.handle (Chip.memory layout) station.chip = .ok replies chip) :
    ((Session.start own).feedAll item.encode).handle (console layout direct) station =
      .ok (item.flows, Session.start own) ((station.withChip chip).display replies) := by
  have hsends := Bulk.sends_feedAll_items (own.paging = .banked) [item]
  have hserve : Bulk.serveAll [item] = item.serve := by simp [Bulk.serveAll]
  rw [hserve, List.flatMap_singleton, List.flatMap_singleton] at hsends
  exact handle_of_sends (quiet_feedAll _ _) hsends h

/-! ### Both -/

/-- **Command lines and bulk requests agree.** Whatever numerals stand for the address and the
value, a command line that changes a value leaves the same chip behind as the bulk request that does
so, but for the count of page switches. A command line that reads a value also leaves the same chip
behind as the bulk request, and the numeral it prints stands for the bytes that the request sends
back. -/
theorem execute_agrees (monitor : Monitor) (station : Station) (huart : station.chip.uart = none)
    (width : Width) {token : Text} {address : UInt32} (htoken : Numeral.parse token = .ok address)
    (haddress : address ≤ Monitor.highestAddress) :
    let own := monitor.config.layout
    (∀ (valueToken : Text) (value : UInt32), Numeral.parse valueToken = .ok value →
      width.Holds value →
      ∃ typed fed,
        (monitor.execute ((Command.write width).name ++ " " ++ token ++ " " ++ valueToken)).handle
          (console own direct) station = .ok (.ok ()) typed ∧
        ((Session.start own).feedAll (width.writeItem address value).encode).handle
          (console own direct) station =
            .ok ((width.writeItem address value).flows, Session.start own) fed ∧
        Chip.Recounted typed.chip fed.chip) ∧
    ∃ typed fed text value sent,
      (monitor.execute ((Command.read width).name ++ " " ++ token)).handle
        (console own direct) station = .ok (.ok ()) typed ∧
      ((Session.start own).feedAll (width.readItem address).encode).handle
        (console own direct) station =
          .ok ((width.readItem address).flows, Session.start own) fed ∧
      Chip.Recounted typed.chip fed.chip ∧
      typed.terminal.output = station.terminal.output ++
        (Monitor.location address ++ ": " ++ text ++ "\n").wire ∧
      fed.terminal.output = station.terminal.output ++ sent ∧
      sent.length = width.size ∧
      Numeral.parse text = .ok value ∧
      value.toNat = Nat.ofDigits 256 (sent.map UInt8.toNat) := by
  intro own
  constructor
  · intro valueToken value hvalue hholds
    have hline : (Command.write width).name ++ " " ++ token ++ " " ++ valueToken =
        Console.spaced (Command.write width).name [token, valueToken] := by
      simp [Console.spaced]
    -- The command reads before and after the write, which only counts page switches.
    obtain ⟨changed, typed, hwrite, htyped, hchip⟩ :=
      handle_showing own station huart width address value
    -- The item does the write alone.
    have hserve : (width.writeItem address value).serve.handle (Chip.memory own) station.chip =
        .ok [] changed := by
      rw [width.serve_writeItem, Program.handle_bind_ok hwrite]
      rfl
    refine ⟨typed, _, ?_, feedAll_item own _ hserve, hchip⟩
    rw [hline, monitor.execute_write htoken haddress hvalue hholds]
    exact htyped
  · have hline : (Command.read width).name ++ " " ++ token =
        Console.spaced (Command.read width).name [token] := by
      simp [Console.spaced]
    -- Both read the same bytes. The command makes a number of them, and the item sends them as they
    -- are.
    have hreads : Memory.Reads (Memory.readEach address width.size) :=
      Memory.readBytes_eq_readEach address width.size ▸ .readBytes address width.size
    obtain ⟨sent, after, hsent, -⟩ := hreads.runs own huart
    have hvalue : (width.read address).handle (Chip.memory own) station.chip =
        .ok (Word.ofBytes sent) after := by
      rw [width.read_eq_readEach, Program.handle_bind_ok hsent]
      rfl
    have hserve : (width.readItem address).serve.handle (Chip.memory own) station.chip =
        .ok sent after := by
      rw [width.serve_readItem]
      exact hsent
    have hlength := Memory.length_of_readEach hsent
    let line := Monitor.valueLine width address (Word.ofBytes sent)
    have hexecute : (monitor.execute ((Command.read width).name ++ " " ++ token)).handle
        (console own direct) station =
          .ok (.ok ()) ((station.withChip after).display line.wire) := by
      rw [hline, monitor.execute_read htoken haddress,
        Program.handle_bind_ok (station.handle_showValue hvalue)]
      rfl
    refine ⟨_, _, Numeral.hex (Word.ofBytes sent) width.digits, Word.ofBytes sent, sent, hexecute,
      feedAll_item own _ hserve, .refl after, output_display _ _, output_display _ _, hlength,
      ?_, ?_⟩
    · exact Numeral.parse_hex _ width.digits_le
    · exact Word.toNat_ofBytes (hlength ▸ width.size_le)

/-- The last address there is, in a spelling of its own: a word there runs past all registers. -/
theorem execute_agrees_highest :
    let monitor : Monitor := ⟨.ofVariant .asm3242, ⟨[], []⟩, 0⟩
    let station : Station := { chip := { page := 3 } }
    let own := monitor.config.layout
    Numeral.parse "0XfFfFfF" = .ok 0xffffff ∧ Numeral.parse "c0de" = .ok 0xc0de ∧
      ∃ typed fed,
        (monitor.execute "mww 0XfFfFfF c0de").handle (console own direct) station =
          .ok (.ok ()) typed ∧
        ((Session.start own).feedAll (Item.writeWord 0xffffff 0xc0de).encode).handle
          (console own direct) station =
            .ok ((Item.writeWord 0xffffff 0xc0de).flows, Session.start own) fed ∧
        Chip.Recounted typed.chip fed.chip := by
  intro monitor station own
  have htoken : Numeral.parse "0XfFfFfF" = .ok 0xffffff := by decide
  have hvalue : Numeral.parse "c0de" = .ok 0xc0de := by decide
  refine ⟨htoken, hvalue, ?_⟩
  exact (execute_agrees monitor station rfl .word htoken (by decide)).1 "c0de" _ hvalue nofun

end Sim.Station

end DebugMonitor
