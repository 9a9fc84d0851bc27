import DebugMonitor.Proofs.CommandLine.Run
import DebugMonitor.Proofs.Memory.PlainData
import DebugMonitor.Proofs.Station.Transfer

/-!
# Data through the keyboard

A host writes a block in bulk mode and reads it back. The monitor treats the bytes of requests as
they come, and plain memory keeps them, but the keyboard is in between: every line feed that the
host sends is a carriage return for the monitor, in text and in data alike. So data comes back as it
was sent if and only if there is no line feed in it (`run_transfer`).
-/

namespace DebugMonitor.CommandLine

open Sim Sim.Station
open Bulk (Item)
open Config (exists_base codeStart_le)

/-! ### What the host sends -/

/-- Bulk mode is entered, a block is written and read back, and bulk mode is left. -/
def transfer (address : UInt32) (data : Bytes) : Bytes :=
  let block := Word.toBytes address ++ Word.toBytes data.length.toUInt32
  Text.utf8 "bmo\r" ++ 'w'.toUInt8 :: block ++ data ++ 'r'.toUInt8 :: block ++
    ['\r'.toUInt8]

/-- The word that the monitor hears when the host sends this one. -/
def heard (word : UInt32) : UInt32 := Word.ofBytes ((Word.toBytes word).map enterKey)

/-- A word whose bytes come from the keyboard. -/
theorem toBytes_heard (word : UInt32) :
    Word.toBytes (heard word) = (Word.toBytes word).map enterKey :=
  Word.toBytes_ofBytes (by rw [List.length_map, Word.length_toBytes])

/-- A block is written, and then as many bytes are read at the same place. -/
def exchange (address : UInt32) (data : Bytes) (h : data.length < 2 ^ 32) : List Item :=
  [.writeBlock address data h, .readBlock address data.length.toUInt32]

theorem exit_not_mem_exchange (address : UInt32) (data : Bytes) (h : data.length < 2 ^ 32) :
    Item.exit ∉ exchange address data h := by
  simp [exchange]

/-- The two requests write the data, and read as many bytes back. -/
theorem serveAll_exchange (address : UInt32) (data : Bytes) (h : data.length < 2 ^ 32) :
    Bulk.serveAll (exchange address data h) =
      (Memory.writeEach address data >>= fun _ => Memory.readEach address data.length) := by
  have hcount : data.length.toUInt32.toNat = data.length := UInt32.toNat_ofNat_of_lt' h
  simp [exchange, Bulk.serveAll, Item.serve, hcount]

/-- Both requests are about the block. -/
theorem exists_of_touches {address : UInt32} {data : Bytes} {h : data.length < 2 ^ 32}
    {item : Item} (hitem : item ∈ exchange address data h) {touched : UInt32}
    (htouches : item.Touches touched) :
    ∃ i < data.length, touched = address + i.toUInt32 := by
  have hcount : data.length.toUInt32.toNat = data.length := UInt32.toNat_ofNat_of_lt' h
  rw [exchange, List.mem_pair] at hitem
  rcases hitem with rfl | rfl
  · exact htouches
  · rw [← hcount]
    exact htouches

/-- What the monitor hears are the same requests, with another block. -/
theorem map_transfer (address : UInt32) {data : Bytes} (h : (data.map enterKey).length < 2 ^ 32)
    (hlength : Text.lineFeed ∉ Word.toBytes data.length.toUInt32) :
    (transfer address data).map enterKey = Text.utf8 "bmo\r" ++
      (exchange (heard address) (data.map enterKey) h ++ [Item.exit]).flatMap Item.encode := by
  have hline : (Text.utf8 "bmo\r").map enterKey = Text.utf8 "bmo\r" := by decide
  have hexit : enterKey '\r'.toUInt8 = '\r'.toUInt8 := by decide
  have hwrite : enterKey 'w'.toUInt8 = 'w'.toUInt8 := by decide
  have hread : enterKey 'r'.toUInt8 = 'r'.toUInt8 := by decide
  have hcount := (map_enterKey_eq_self_iff _).mpr hlength
  simp only [transfer, exchange, Item.encode, toBytes_heard, List.map_append, List.map_cons,
    List.map_nil, List.length_map, List.flatMap_cons, List.flatMap_nil,
    List.append_assoc, List.cons_append, List.append_nil, List.nil_append,
    hline, hexit, hwrite, hread, hcount]

/-! ### A run -/

/-- Detection leaves nothing behind but a byte of data and the page switches. -/
theorem detected_clear (station : Station) (hknown : station.chip.variant ≠ .unknown)
    (hclear : station.chip.Clear station.chip.config.layout) :
    ∃ after : Chip, after.Clear station.chip.config.layout ∧
      detected station = station.withChip after := by
  -- The byte lies where the registers would be, and no UART is attached to take it.
  obtain ⟨base, hbase, hshows⟩ := exists_base hknown
  have hplain := hshows.plain (show Uart.lineControl ≤ Uart.lastRegister by decide)
  obtain ⟨switches, hwrite⟩ := Chip.handle_write_plain hclear hplain Uart.line8N1
  have hafter := (hclear.poke (base + Uart.lineControl) Uart.line8N1).counting switches
  generalize (station.chip.poke (base + Uart.lineControl) Uart.line8N1).counting switches = after
    at hwrite hafter
  rw [Memory.write, Memory.ask, Program.handle_ask] at hwrite
  exact ⟨after, hafter, detected_eq station hbase hwrite⟩

/-- The line that enters bulk mode, from keystrokes to echo. -/
theorem commits_bulk : LineEditor.Commits (Text.utf8 "bmo\r") (Text.utf8 "bmo") :=
  ⟨by decide, by decide⟩

theorem firstToken_bulk : Console.firstToken (Text.utf8 "bmo") = some ("bmo" : Text) := by
  decide +kernel

theorem echo_bulk : (LineEditor.pressAll {} (Text.utf8 "bmo\r")).echo = Text.wire "bmo\n" := by
  decide

/-- What is shown of a transfer. -/
def shown (data : Bytes) : Bytes :=
  (Monitor.greeting build ++ Monitor.prompt).wire ++ Text.wire "bmo\nOK\n" ++ data ++
    Monitor.prompt.wire

/-- The block comes back as the monitor has heard it, and nothing else is accessed. -/
theorem serve_heard {chip : Chip} (hknown : chip.variant ≠ .unknown)
    (hclear : chip.Clear chip.config.layout) {address : UInt32} {data : Bytes}
    (hplain : ∀ i < data.length, chip.config.layout.Plain ((heard address).toNat + i))
    (hlength : Text.lineFeed ∉ Word.toBytes data.length.toUInt32) :
    ∃ after, ((monitorFor chip (transfer address data)).serve : Program Console Empty).handle
        (console chip.config.layout atKeyboard)
        (detected { chip, terminal := { typed := transfer address data } }) =
          .error .inputExhausted after ∧
      after.terminal.output = shown (data.map enterKey) ∧
      ∀ request ∈ accesses chip (transfer address data),
        ∃ i < data.length, request.address = heard address + i.toUInt32 := by
  let start : Station := { chip, terminal := { typed := transfer address data } }
  obtain ⟨ready, hready, hdetected⟩ := detected_clear start hknown hclear
  rw [← List.length_map enterKey] at hplain
  have hlt := Layout.Plain.count_lt hplain
  obtain ⟨written, hwritten⟩ := Chip.handle_readEach_writeEach hready hplain
  rw [← serveAll_exchange (heard address) _ hlt] at hwritten
  -- At a terminal the host would have sent what the monitor hears.
  have htyped := map_transfer address hlt hlength
  have hpatience : ((transfer address data).map enterKey).length <
      (transfer address data).length + 1 := by
    rw [List.length_map]
    exact Nat.lt_succ_self _
  obtain ⟨typed, hserve, houtput, haccessed⟩ :=
    serve_transfer (α := Empty) (monitorFor chip (transfer address data))
      (cooked (start.withChip ready)) rfl hpatience commits_bulk firstToken_bulk
      (exit_not_mem_exchange _ _ hlt) htyped hwritten
  obtain ⟨raw, hraw, hsame⟩ := stopped_atKeyboard hserve
  refine ⟨raw, ?_, ?_, fun request hrequest => ?_⟩
  · show _ = _
    rw [hdetected]
    exact hraw
  · rw [hsame, houtput, echo_bulk]
    show [] ++ _ ++ _ ++ _ = _
    rw [List.nil_append, List.append_assoc _ (Text.wire "bmo\n"), ← Text.wire_append]
    rfl
  · have haccesses : accesses chip (transfer address data) = accessed chip.config.layout
        ((monitorFor chip (transfer address data)).serve : Program Console Empty)
        (cooked (start.withChip ready)) := by
      rw [accesses, accessed, ← trace_atKeyboard, ← hdetected]
    rw [haccesses] at hrequest
    obtain ⟨item, hitem, htouches⟩ := haccessed request hrequest
    rw [← List.length_map enterKey]
    exact exists_of_touches hitem htouches

/-- **A transfer is exact up to line feeds.** On a chip that is known, with or without the UART, a
host that writes data to a block of plain memory, clear of the UART's registers, and reads it back,
is sent the data with every line feed turned into a carriage return. So the data comes back as it
was if and only if there is no line feed in it. The block lies where the monitor has heard that it
does, and its length must be heard as it is. -/
theorem run_transfer (options : Options) (files : Files) {input : Bytes} {chip : Chip}
    {address : UInt32} {data : Bytes}
    (hchip : (options.chipFrom files.read).run.run input = (.ok chip, transfer address data))
    (hknown : chip.variant ≠ .unknown)
    (hplain : ∀ i < data.length, chip.config.layout.Plain ((heard address).toNat + i))
    (hspares : ∀ i < data.length, ∀ base ∈ chip.config.uartBase,
      Uart.Outside base (heard address + i.toUInt32))
    (hlength : Text.lineFeed ∉ Word.toBytes data.length.toUInt32) :
    options.run files input = { code := 0, output := shown (data.map enterKey) } ∧
      (options.run files input = { code := 0, output := shown data } ↔ Text.lineFeed ∉ data) := by
  have hclear : chip.Clear chip.config.layout := by
    obtain ⟨cells, rfl⟩ := exists_code_of_chipFrom hchip
    exact ⟨⟨codeStart_le _, fun _ => rfl⟩, rfl, rfl⟩
  obtain ⟨base, hbase, hshows⟩ := exists_base hknown
  obtain ⟨after, hserve, houtput, haccesses⟩ := serve_heard hknown hclear hplain hlength
  have hrun : options.run files input = { code := 0, output := shown (data.map enterKey) } := by
    rw [← houtput]
    obtain ⟨name, image, uart⟩ := options
    cases uart with
    | false => exact run_plain hchip hserve
    | true =>
      -- Over the bridge it is served alike, because no register lies in the block.
      have houtside : ∀ request ∈ accesses chip (transfer address data),
          Uart.Outside base request.address := by
        intro request hrequest
        obtain ⟨i, hi, haddress⟩ := haccesses request hrequest
        exact haddress ▸ hspares i hi base hbase
      obtain ⟨wired, hwired, hsame⟩ := serve_overBridge hbase hshows hclear.fits hclear.uart_none
        houtside hserve nofun
      rw [← hsame]
      exact run_overBridge hchip hbase hwired
  refine ⟨hrun, ?_⟩
  rw [hrun, ← map_enterKey_eq_self_iff]
  constructor
  · intro hsame
    have houtput : shown (data.map enterKey) = shown data := congrArg Outcome.output hsame
    exact List.append_cancel_left (List.append_cancel_right houtput)
  · intro hsame
    rw [hsame]

/-- One line feed is in the address, and one in the data. -/
theorem run_transfer_lineFeed :
    let options : Options := { chip := some "ASM2142", uart := true }
    let files : Files := {}
    let data : Bytes := [0x41, 0x0a]
    let input := transfer 0x0a20 data
    let chip := Chip.withToken (Text.utf8 "2214A_FW")
    (options.chipFrom files.read).run.run input = (.ok chip, input) ∧
      chip.variant ≠ .unknown ∧
      heard 0x0a20 = 0x0d20 ∧
      (∀ i < data.length, chip.config.layout.Plain ((heard 0x0a20).toNat + i)) ∧
      (∀ i < data.length, ∀ base ∈ chip.config.uartBase,
        Uart.Outside base (heard 0x0a20 + i.toUInt32)) ∧
      Text.lineFeed ∉ Word.toBytes data.length.toUInt32 ∧
      options.run files input = { code := 0, output := shown [0x41, 0x0d] } ∧
      options.run files input ≠ { code := 0, output := shown data } := by
  intro options files data input chip
  have hchip : (options.chipFrom files.read).run.run input = (.ok chip, input) := rfl
  have hknown : chip.variant ≠ .unknown := by decide +kernel
  have hplain : ∀ i < data.length, chip.config.layout.Plain ((heard 0x0a20).toNat + i) := by
    decide +kernel
  have hbase : chip.config.uartBase = some 0x15100 := by decide +kernel
  have hspares : ∀ i < data.length, ∀ base ∈ chip.config.uartBase,
      Uart.Outside base (heard 0x0a20 + i.toUInt32) := by
    intro i hi base hmem
    rw [hbase, Option.mem_some_iff] at hmem
    subst hmem
    revert i
    decide +kernel
  have hlength : Text.lineFeed ∉ Word.toBytes data.length.toUInt32 := by decide
  obtain ⟨hrun, hexact⟩ := run_transfer options files hchip hknown hplain hspares hlength
  refine ⟨hchip, hknown, by decide, hplain, hspares, hlength, hrun, ?_⟩
  exact fun hsame => hexact.mp hsame (by decide)

end DebugMonitor.CommandLine
