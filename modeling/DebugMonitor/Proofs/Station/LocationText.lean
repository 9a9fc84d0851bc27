import DebugMonitor.Proofs.Memory.Place
import DebugMonitor.Proofs.Station.MemoryCommand

/-!
# What a line about a value says of its address

Each line that a memory command prints begins with a location: the region of the address, and the
low bits of the address in hexadecimal (`prints_location`). So the location says where the value was
accessed. It does not always say at which address, since code and registers have more addresses than
these bits can tell apart; for data it does (`eq_of_location_eq`).
-/

namespace DebugMonitor

open Sim

/-! ### Locations -/

/-- No two words are written the same. -/
theorem Numeral.hex_inj {a b : UInt32} {minDigits : Nat} (h : minDigits ≤ maxDigits)
    (heq : hex a minDigits = hex b minDigits) : a = b := by
  have hparse : parse (hex a minDigits) = parse (hex b minDigits) := congrArg parse heq
  rw [parse_hex a h, parse_hex b h] at hparse
  exact Except.ok.inj hparse

namespace Region

theorem name_inj {region other : Region} (h : region.name = other.name) : region = other := by
  have hdistinct : ∀ region ∈ [xdata, idata, pdata, code, sfr],
      ∀ other ∈ [xdata, idata, pdata, code, sfr], region.name = other.name → region = other := by
    decide
  exact hdistinct region (by cases region <;> decide) other (by cases other <;> decide) h

/-- A name has no blank and no colon, so it is plain where it ends. -/
theorem not_mem_name (region : Region) : ' ' ∉ region.name ∧ ':' ∉ region.name := by
  cases region <;> decide

/-- The offset is what is left of an address modulo 2 MiB. -/
theorem offset_eq_iff {a b : UInt32} : offset a = offset b ↔ a % 0x200000 = b % 0x200000 := by
  simp only [← UInt32.toNat_inj, toNat_offset, UInt32.toNat_mod]
  rfl

end Region

namespace Monitor

/-- Two addresses look the same if their regions and their low 21 bits agree. -/
theorem location_eq_iff {a b : UInt32} :
    location a = location b ↔
      Region.ofAddress a = Region.ofAddress b ∧ a % 0x200000 = b % 0x200000 := by
  rw [← Region.offset_eq_iff]
  constructor
  · intro h
    have hcut : (Region.ofAddress a).name ++ (" " ++ Numeral.hex (Region.offset a) 6) =
        (Region.ofAddress b).name ++ (" " ++ Numeral.hex (Region.offset b) 6) := by
      simpa [location] using h
    have hname (region : Region) : ∀ c ∈ region.name, decide (c ≠ ' ') = true :=
      fun c hc => decide_eq_true (ne_of_mem_of_not_mem hc region.not_mem_name.1)
    -- The name of a region ends where the blank is.
    obtain ⟨hregion, hrest⟩ :=
      Console.eq_of_append_eq_append (hname _) (by simp) (hname _) (by simp) hcut
    have hoffset := Numeral.hex_inj (by decide) (List.append_cancel_left hrest)
    exact ⟨Region.name_inj hregion, hoffset⟩
  · rintro ⟨hregion, hoffset⟩
    rw [location, location, hregion, hoffset]

/-- A region of data is no larger than what the offset can tell apart. -/
theorem eq_of_location_eq {a b : UInt32} (ha : a < 0x400000) (hb : b < 0x400000)
    (h : location a = location b) : a = b := by
  obtain ⟨hregion, hoffset⟩ := location_eq_iff.mp h
  grind [Region.ofAddress]

theorem colon_not_mem_location (address : UInt32) : ':' ∉ location address := by
  have hall : ∀ digit ∈ List.range 16, Nat.digitChar digit ≠ ':' := by decide
  have hdigits : ':' ∉ Numeral.padded 16 6 (Region.offset address).toNat := by
    rw [Numeral.padded_eq_map (by omega), List.mem_map]
    rintro ⟨digit, hdigit, hcolon⟩
    exact hall digit (List.mem_range.mpr (Numeral.lt_of_mem_written (by omega) hdigit)) hcolon
  have hblank : ':' ∉ (" " : Text) := by decide
  have hmarker : ':' ∉ ("0x" : Text) := by decide
  simp only [location, Numeral.hex, List.mem_append, not_or]
  exact ⟨⟨(Region.ofAddress address).not_mem_name.2, hblank⟩, hmarker, hdigits⟩

/-- A line about a value is its location up to the colon. -/
theorem takeWhile_location (address : UInt32) (rest : Text) :
    (location address ++ (":" : Text) ++ rest).takeWhile (· ≠ ':') = location address := by
  rw [List.append_assoc]
  refine Console.takeWhile_append_of_stop ?_ (by simp)
  exact fun c hc => decide_eq_true (ne_of_mem_of_not_mem hc (colon_not_mem_location address))

/-- The tokens of a memory command that finds its address. -/
inductive OnAddress (tokens : List Text) (address : UInt32) : Prop where
  | read {width : Width} {token : Text} {others : List Text}
      (tokens_eq : tokens = width.readName :: token :: others)
      (text : Numeral.parse token = .ok address) (range : address ≤ 0xffffff)
  | write {width : Width} {token valueToken : Text} {others : List Text}
      (tokens_eq : tokens = width.writeName :: token :: valueToken :: others)
      (text : Numeral.parse token = .ok address) (range : address ≤ 0xffffff)

/-- What is said about the outcome of a line. -/
def reported : Except Failure Unit → Text
  | .ok () => []
  | .error failure => failure.report

end Monitor

/-! ### What is printed -/

namespace Sim.Station

variable {layout : Layout} {address : UInt32} {rows others : List Text}
  {before shown after : Station}

/-- Rows were printed, all of them about a value at the address. -/
structure Prints (address : UInt32) (rows : List Text) (before after : Station) : Prop where
  output_eq : after.terminal.output =
    before.terminal.output ++ rows.flatMap fun row => Text.wire (row ++ "\n")
  location_eq : ∀ row ∈ rows, row.takeWhile (· ≠ ':') = Monitor.location address

theorem Prints.trans (h : Prints address rows before shown)
    (h' : Prints address others shown after) : Prints address (rows ++ others) before after where
  output_eq := by rw [h'.output_eq, h.output_eq, List.append_assoc, List.flatMap_append]
  location_eq := List.forall_mem_append.mpr ⟨h.location_eq, h'.location_eq⟩

/-- Showing a value prints one row. -/
theorem prints_showValue (width : Width) (address : UInt32) (before : Station) :
    ∃ row after, (Monitor.showValue width address).handle (console layout direct) before =
      .ok () after ∧ Prints address [row] before after := by
  obtain ⟨after, hrun, -, value, chip, -, rfl⟩ := handle_shows width address before
  let row : Text := Monitor.location address ++ (":" : Text) ++
    ((" " : Text) ++ Numeral.hex value width.digits)
  have hrow : Monitor.valueLine width address value = row ++ "\n" := by
    simp [Monitor.valueLine, row]
  refine ⟨row, _, hrun, ?_, ?_⟩
  · rw [output_display, ← Monitor.wire_valueLine, hrow, List.flatMap_singleton]
    rfl
  · rintro _ (_ | ⟨_, ⟨⟩⟩)
    exact Monitor.takeWhile_location address _

variable (monitor : Monitor) {line : Text}

/-- A line on an address prints the location of the address in front of every value. -/
theorem prints_location (h : Monitor.OnAddress (Console.tokens line) address) (before : Station) :
    ∃ outcome after shown rows,
      (monitor.execute line).handle (console layout direct) before = .ok outcome after ∧
        rows ≠ [] ∧ Prints address rows before shown ∧
        after.terminal.output = shown.terminal.output ++ (Monitor.reported outcome).wire := by
  cases h with
  | @read width token others htokens htext hrange =>
    obtain ⟨row, shown, hshow, hprints⟩ := prints_showValue width address before
    rw [← width.name_read] at htokens
    rw [Monitor.execute_of_read htokens htext hrange, Program.handle_bind_ok hshow]
    exact ⟨_, _, shown, [row], rfl, List.cons_ne_nil _ _, hprints, (List.append_nil _).symm⟩
  | @write width token valueToken others htokens htext hrange =>
    obtain ⟨row, shown, hshow, hprints⟩ := prints_showValue width address before
    rw [← width.name_write] at htokens
    -- The first row is out before the value is looked at.
    cases hvalue : width.parseValue valueToken with
    | error failure =>
      have hrefused := Monitor.RefusedValue.value htokens htext hrange
        (Monitor.parseValue_error_iff.mp hvalue)
      obtain ⟨htell, -⟩ := handle_tell_error failure shown
      rw [Monitor.execute_refusedValue hrefused, Program.handle_bind_ok hshow, htell]
      exact ⟨_, _, shown, [row], rfl, List.cons_ne_nil _ _, hprints, output_display _ _⟩
    | ok value =>
      obtain ⟨hvalueText, hholds⟩ := Monitor.parseValue_ok_iff.mp hvalue
      obtain ⟨written, -, hchange, -⟩ := handle_changes width address value shown
      obtain ⟨again, after, hagain, hlast⟩ :=
        prints_showValue width address (shown.withChip written)
      rw [Monitor.execute_of_write htokens htext hrange hvalueText hholds, Monitor.showing,
        Program.handle_bind_ok hshow, Program.handle_bind_ok hchange,
        Program.handle_bind_ok hagain]
      -- Both rows name the same place.
      have hboth : Prints address ([row] ++ [again]) before after :=
        hprints.trans ⟨hlast.output_eq, hlast.location_eq⟩
      exact ⟨_, _, after, _, rfl, List.cons_ne_nil _ _, hboth, (List.append_nil _).symm⟩

/-- **What is printed about an address agrees with where accesses to it go.** Printed locations are
the same if, and only if, the addresses are in one region and have the same low bits. -/
theorem locations_agree (paging : Paging) (gate : Option PowerGate) :
    (∀ address,
      let layout : Layout := { Layout.banked with paging, gate }
      let region := Region.ofAddress address
      let data := Layout.dataPlaces paging address
      (region = .xdata ∨ region = .idata ∨ region = .pdata ↔
        layout.AccessGoesTo address data data) ∧
      (region = .code ↔ layout.AccessGoesTo address [.code] []) ∧
      (region = .sfr ↔ layout.AccessGoesTo address [.registers] [.registers])) ∧
    (∀ (monitor : Monitor) (before : Station) (line : Text) (address : UInt32),
      Monitor.OnAddress (Console.tokens line) address →
      ∃ outcome after shown rows,
        (monitor.execute line).handle (console monitor.config.layout direct) before =
            .ok outcome after ∧
          rows ≠ [] ∧ Prints address rows before shown ∧
          after.terminal.output = shown.terminal.output ++ (Monitor.reported outcome).wire) ∧
    ∀ a b : UInt32,
      (Monitor.location a = Monitor.location b ↔
        Region.ofAddress a = Region.ofAddress b ∧ a % 0x200000 = b % 0x200000) ∧
      (a < 0x400000 → b < 0x400000 → (Monitor.location a = Monitor.location b ↔ a = b)) := by
  refine ⟨fun address => Layout.region_iff_goesTo paging gate address, ?_, fun a b => ⟨?_, ?_⟩⟩
  · exact fun monitor before line address h => prints_location monitor h before
  · exact Monitor.location_eq_iff
  · intro ha hb
    exact ⟨Monitor.eq_of_location_eq ha hb, congrArg Monitor.location⟩

/-- The last byte of one region and the first byte of the next, which share a block of 2 MiB. -/
theorem locations_agree_border :
    let monitor : Monitor := ⟨.ofVariant .asm1042, ⟨[], []⟩, 0⟩
    let line : Text := "mwb 2FFFFF 0x100"
    (∃ outcome after shown rows,
        (monitor.execute line).handle (console monitor.config.layout direct) { chip := {} } =
            .ok outcome after ∧
          rows ≠ [] ∧ Prints 0x2fffff rows { chip := {} } shown ∧
          after.terminal.output = shown.terminal.output ++ (Monitor.reported outcome).wire) ∧
      Monitor.location 0x2fffff = "IDATA 0x0fffff" ∧
      Monitor.location 0x2fffff ≠ Monitor.location 0x300000 ∧
      Layout.unified.AccessGoesTo 0x2fffff [] [] := by
  intro monitor line
  have htokens : Console.tokens line = (["mwb", "2FFFFF", "0x100"] : List Text) := by decide +kernel
  have hwrite : Console.tokens line = Width.byte.writeName :: "2FFFFF" :: ["0x100"] := htokens
  have htext : Numeral.parse "2FFFFF" = .ok 0x2fffff := by decide
  have hline : Monitor.OnAddress (Console.tokens line) 0x2fffff := .write hwrite htext (by decide)
  obtain ⟨hregion, hprints, hlocation⟩ := locations_agree .unified none
  have hborder : Monitor.location 0x2fffff ≠ Monitor.location 0x300000 := by
    intro heq
    have hsame := ((hlocation 0x2fffff 0x300000).2 (by decide) (by decide)).mp heq
    exact absurd hsame (by decide)
  exact ⟨hprints monitor _ line _ hline, by decide +kernel, hborder,
    (hregion 0x2fffff).1.mp (by decide)⟩

end Sim.Station

end DebugMonitor
