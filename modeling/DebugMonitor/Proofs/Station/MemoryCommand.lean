import DebugMonitor.Proofs.Console.Refusal
import DebugMonitor.Proofs.Station.Agreement
import DebugMonitor.Proofs.Station.LeadsTo
import DebugMonitor.Proofs.Text.Newlines

/-!
# The memory commands, end to end

A line that asks for neither of the four other commands is carried out in one of five ways
(`CarriedOut`), and its tokens say in which: blank lines do nothing, lines that are refused say so,
and good ones read, or read, write and read again. Every read puts one line on the terminal.
`execute_memory` says this of every line, at any station, whatever the chip is like and wherever the
addresses lead.
-/

namespace DebugMonitor

open Sim

variable {α : Type}

/-! ### Lines of text -/

theorem Numeral.newline_not_mem_padded (minDigits value : Nat) :
    '\n' ∉ padded 16 minDigits value := by
  have hdigits : ∀ digit < 16, Nat.digitChar digit ≠ '\n' := by decide
  rw [padded_eq_map (by omega)]
  intro hmem
  obtain ⟨digit, hdigit, hnewline⟩ := List.mem_map.mp hmem
  exact hdigits digit (lt_of_mem_written (by omega) hdigit) hnewline

namespace Width

/-! ### Commands and accesses of each width -/

def readName : Width → Text
  | byte => "mrb"
  | word => "mrw"

def writeName : Width → Text
  | byte => "mwb"
  | word => "mww"

theorem name_read (width : Width) : (Command.read width).name = width.readName := by
  cases width <;> rfl

theorem name_write (width : Width) : (Command.write width).name = width.writeName := by
  cases width <;> rfl

/-- The accesses of a read. -/
def reads (address : UInt32) : Width → List Memory.Request
  | byte => [.read address]
  | word => [.read address, .read (address + 1), .read (address + 2), .read (address + 3)]

/-- The accesses of a write. -/
def writes (address value : UInt32) : Width → List Memory.Request
  | byte => [.write address value.toUInt8]
  | word =>
    [.write address value.toUInt8, .write (address + 1) (value >>> 8).toUInt8,
      .write (address + 2) (value >>> 16).toUInt8, .write (address + 3) (value >>> 24).toUInt8]

end Width

/-- The offset is the address modulo the size of a region. -/
theorem Region.toNat_offset (address : UInt32) :
    (offset address).toNat = address.toNat % 2 ^ 21 := by
  rw [offset, UInt32.toNat_and]
  exact Nat.and_two_pow_sub_one_eq_mod _ 21

/-- The region, the low 21 bits of the address, and the value. -/
def Monitor.valueText (width : Width) (address value : UInt32) : Text :=
  (Region.ofAddress address).name ++
    " 0x" ++ Numeral.padded 16 6 (address.toNat % 2 ^ 21) ++
    ": 0x" ++ Numeral.padded 16 (if width = .byte then 2 else 8) value.toNat

/-- The line of a value ends in one newline. -/
theorem Monitor.wire_valueLine (width : Width) (address value : UInt32) :
    (valueLine width address value).wire =
      (valueText width address value).utf8 ++ [0x0d, 0x0a] := by
  have hline : valueLine width address value = valueText width address value ++ "\n" := by
    rw [valueLine, valueText, location, Numeral.hex, Numeral.hex, Region.toNat_offset]
    cases width <;> simp [Width.digits]
  rw [hline, Text.wire_line]
  have hregion : '\n' ∉ (Region.ofAddress address).name := by
    cases Region.ofAddress address <;> decide
  have hmarker : '\n' ∉ (" 0x" : Text) := by decide
  have hcolon : '\n' ∉ (": 0x" : Text) := by decide
  have hplace := Numeral.newline_not_mem_padded 6 (address.toNat % 2 ^ 21)
  have hvalue := Numeral.newline_not_mem_padded (if width = .byte then 2 else 8) value.toNat
  simp only [valueText, List.mem_append, not_or]
  exact ⟨⟨⟨⟨hregion, hmarker⟩, hplace⟩, hcolon⟩, hvalue⟩

/-! ### What a value takes on a chip -/

namespace Sim.Chip

variable {layout : Layout}

theorem trace_readBytes (address : UInt32) (count : Nat) (chip : Chip) :
    (Memory.readBytes address count).trace (memory layout) chip =
      (List.range count).map fun i => .read (address + i.toUInt32) := by
  induction count generalizing address chip with
  | zero => rfl
  | succ count ih =>
    obtain ⟨b, next, hread⟩ := memory_answers layout (.read address) chip
    have hfirst : (Memory.read address).handle (memory layout) chip = .ok b next := by
      rw [Memory.read, Memory.ask, Program.handle_ask, hread]
    have hrest (i : Nat) : Memory.Request.read (address + 1 + i.toUInt32) =
        .read (address + (i + 1).toUInt32) := by
      rw [Memory.add_succ_offset]
    rw [Memory.readBytes, Program.trace_bind_ok hfirst, Program.trace_bind_pure, ih, Memory.read,
      Memory.ask, Program.trace_ask, List.range_succ_eq_map, List.map_cons, List.map_map,
      Memory.add_zero_offset]
    simp only [hrest]
    rfl

theorem trace_writeBytes (address : UInt32) (bytes : Bytes) (chip : Chip) :
    (Memory.writeBytes address bytes).trace (memory layout) chip =
      bytes.mapIdx fun i b => .write (address + i.toUInt32) b := by
  induction bytes generalizing address chip with
  | nil => rfl
  | cons b rest ih =>
    obtain ⟨⟨⟩, next, hwrite⟩ := memory_answers layout (.write address b) chip
    have hfirst : (Memory.write address b).handle (memory layout) chip = .ok () next := by
      rw [Memory.write, Memory.ask, Program.handle_ask, hwrite]
    have hrest (i : Nat) (b : UInt8) : Memory.Request.write (address + 1 + i.toUInt32) b =
        .write (address + (i + 1).toUInt32) b := by
      rw [Memory.add_succ_offset]
    rw [Memory.writeBytes, Program.trace_bind_ok hfirst, ih, Memory.write, Memory.ask,
      Program.trace_ask, List.mapIdx_cons, Memory.add_zero_offset]
    simp only [hrest]
    rfl

/-- A read asks for each of its bytes. -/
theorem trace_read (width : Width) (address : UInt32) (chip : Chip) :
    (width.read address).trace (memory layout) chip = width.reads address := by
  cases width with
  | byte => exact (Program.trace_bind_pure _ _ chip).trans (Program.trace_ask _ chip)
  | word =>
    refine ((Program.trace_bind_pure _ _ chip).trans (trace_readBytes address 4 chip)).trans ?_
    simp [Width.reads, List.range_succ]

theorem trace_write (width : Width) (address value : UInt32) (chip : Chip) :
    (width.write address value).trace (memory layout) chip = width.writes address value := by
  cases width with
  | byte => exact Program.trace_ask _ chip
  | word =>
    refine (trace_writeBytes address (Word.toBytes value) chip).trans ?_
    simp [Width.writes, Word.toBytes]

end Sim.Chip

namespace Sim.Station

variable {layout : Layout}

/-- What a program on the memory accesses is accessed at the station. -/
theorem accessed_memory (p : Program Memory α) (station : Station) :
    accessed layout (Console.memory p) station = p.trace (Chip.memory layout) station.chip := by
  induction p generalizing station with
  | done a => rfl
  | stalled => rfl
  | call request next ih =>
    have hcall : Console.memory (.call request next) =
        .call (.memory request) fun answer => Console.memory (next answer) := rfl
    rw [hcall, accessed, Program.trace, Program.trace, console_memory, onChip_apply]
    cases hrequest : Chip.memory layout request station.chip with
    | ok answer chip => exact congrArg (request :: ·) (ih answer (station.withChip chip))
    | error stop chip => rfl

/-! ### How a memory command is carried out -/

/-- The value at an address is read, and one line about it is shown. -/
def ShowsValue (layout : Layout) (width : Width) (address : UInt32) (before after : Station) :
    Prop :=
  ∃ value chip, (width.read address).handle (Chip.memory layout) before.chip = .ok value chip ∧
    after = (before.withChip chip).display
      ((Monitor.valueText width address value).utf8 ++ [0x0d, 0x0a])

/-- What becomes of a line with these tokens: how it ends, what it accesses, and what it leaves
behind. -/
inductive CarriedOut (layout : Layout) (before : Station) (tokens : List Text) :
    Except Failure Unit → List Memory.Request → Station → Prop where
  | blank (tokens_eq : tokens = []) : CarriedOut layout before tokens (.ok ()) [] before
  | refused {failure : Failure} (refused : Monitor.Refused tokens failure) :
      CarriedOut layout before tokens (.error failure) [] (before.display failure.report.wire)
  | refusedValue {width : Width} {address : UInt32} {failure : Failure} {shown : Station}
      (refused : Monitor.RefusedValue tokens width address failure)
      (shows : ShowsValue layout width address before shown) :
      CarriedOut layout before tokens (.error failure) (width.reads address)
        (shown.display failure.report.wire)
  | read {width : Width} {token : Text} {others : List Text} {address : UInt32} {after : Station}
      (tokens_eq : tokens = width.readName :: token :: others)
      (text : Numeral.parse token = .ok address) (range : address ≤ 0xffffff)
      (shows : ShowsValue layout width address before after) :
      CarriedOut layout before tokens (.ok ()) (width.reads address) after
  | write {width : Width} {token valueToken : Text} {others : List Text} {address value : UInt32}
      {shown after : Station} {written : Chip}
      (tokens_eq : tokens = width.writeName :: token :: valueToken :: others)
      (text : Numeral.parse token = .ok address) (range : address ≤ 0xffffff)
      (valueText : Numeral.parse valueToken = .ok value) (holds : width = .byte → value ≤ 0xff)
      (shows : ShowsValue layout width address before shown)
      (writes : (width.write address value).handle (Chip.memory layout) shown.chip = .ok () written)
      (again : ShowsValue layout width address (shown.withChip written) after) :
      CarriedOut layout before tokens (.ok ())
        (width.reads address ++ width.writes address value ++ width.reads address) after

/-- Showing a value reads it, shows it, and does nothing else. -/
theorem handle_shows (width : Width) (address : UInt32) (before : Station) :
    ∃ after, (Monitor.showValue width address).handle (console layout direct) before =
        .ok () after ∧
      accessed layout (Monitor.showValue width address) before = width.reads address ∧
      ShowsValue layout width address before after := by
  have hanswers := (Memory.Reads.width width address).returns
    (fun request _ => Chip.memory_answers layout request) before.chip
  obtain ⟨value, chip, hread⟩ := hanswers
  refine ⟨_, before.handle_showValue hread, ?_, value, chip, hread, ?_⟩
  · rw [Monitor.showValue, accessed_bind_ok (before.handle_memory_ok hread), accessed_memory,
      Chip.trace_read, Inert.accessed_eq (Inert.say _), List.append_nil]
  · rw [Monitor.wire_valueLine]

/-- Changing a value shows nothing. -/
theorem handle_changes (width : Width) (address value : UInt32) (before : Station) :
    ∃ written,
      (width.write address value).handle (Chip.memory layout) before.chip = .ok () written ∧
      (Monitor.changeValue width address value).handle (console layout direct) before =
        .ok () (before.withChip written) ∧
      accessed layout (Monitor.changeValue width address value) before =
        width.writes address value := by
  obtain ⟨⟨⟩, written, hwrite⟩ := (Width.write_within width address value).returns
    (fun request _ => Chip.memory_answers layout request) before.chip
  refine ⟨written, hwrite, before.handle_memory_ok hwrite, ?_⟩
  rw [Monitor.changeValue, accessed_memory, Chip.trace_write]

theorem handle_tell_error (failure : Failure) (before : Station) :
    (Monitor.tell (.error failure)).handle (console layout direct) before =
        .ok (.error failure) (before.display failure.report.wire) ∧
      accessed layout (Monitor.tell (.error failure)) before = [] := by
  constructor
  · rw [Monitor.tell_error, Program.handle_bind_ok (handle_say failure.report before)]
    rfl
  · exact Inert.accessed_eq (.bind (Inert.say failure.report) fun _ => .pure _) before

variable (monitor : Monitor) {line : Text}

/-- Every line but those of the other four commands is carried out. -/
theorem carriedOut (before : Station)
    (hmemory : ∀ name ∈ (Console.tokens line).head?,
      name ∉ (["help", "version", "reset", "bmo"] : List Text)) :
    ∃ outcome after,
      (monitor.execute line).handle (console layout direct) before = .ok outcome after ∧
        CarriedOut layout before (Console.tokens line) outcome
          (accessed layout (monitor.execute line) before) after := by
  -- The verdict on the line tells which row of the table it is.
  cases Monitor.verdict (Console.tokens line) with
  | blank htokens =>
    rw [monitor.execute_blank htokens]
    exact ⟨_, _, rfl, .blank htokens⟩
  | refused h =>
    obtain ⟨hrun, haccessed⟩ := handle_tell_error _ before
    rw [Monitor.execute_refused h, haccessed]
    exact ⟨_, _, hrun, .refused h⟩
  | @refusedValue width address failure h =>
    obtain ⟨shown, hshow, hreads, hshows⟩ := handle_shows width address before
    obtain ⟨hrun, haccessed⟩ := handle_tell_error failure shown
    rw [Monitor.execute_refusedValue h, Program.handle_bind_ok hshow, accessed_bind_ok hshow,
      hreads, haccessed, List.append_nil]
    exact ⟨_, _, hrun, .refusedValue h hshows⟩
  | @read width _ _ address htokens htext hrange =>
    obtain ⟨after, hshow, hreads, hshows⟩ := handle_shows width address before
    rw [Monitor.execute_of_read htokens htext hrange, Program.handle_bind_ok hshow,
      accessed_bind_ok hshow, hreads, Inert.accessed_eq (.pure _), List.append_nil]
    exact ⟨_, _, rfl, .read (width.name_read ▸ htokens) htext hrange hshows⟩
  | @write width _ _ _ address value htokens htext hrange hvalue hholds =>
    obtain ⟨shown, hshow, hreads, hshows⟩ := handle_shows width address before
    obtain ⟨written, hwrite, hchange, hwrites⟩ := handle_changes width address value shown
    obtain ⟨after, hagain, hreadsAgain, hshowsAgain⟩ :=
      handle_shows width address (shown.withChip written)
    rw [Monitor.execute_of_write htokens htext hrange hvalue hholds, Monitor.showing,
      Program.handle_bind_ok hshow, Program.handle_bind_ok hchange, Program.handle_bind_ok hagain,
      accessed_bind_ok hshow, accessed_bind_ok hchange, accessed_bind_ok hagain, hreads, hwrites,
      hreadsAgain, Inert.accessed_eq (.pure _), List.append_nil, ← List.append_assoc]
    exact ⟨_, _, rfl, .write (width.name_write ▸ htokens) htext hrange hvalue hholds hshows hwrite
      hshowsAgain⟩
  | @other command arguments htokens hfree =>
    have hname := hmemory command.name (by rw [htokens]; rfl)
    cases command with
    | read width => cases hfree
    | write width => cases hfree
    | _ => exact absurd (by decide) hname

/-! ### Which lines succeed -/

/-- A token that stands for an address. -/
def IsAddress (token : Text) : Prop :=
  ∃ address, Numeral.parse token = .ok address ∧ address ≤ 0xffffff

/-- A token that stands for a value of some width. -/
def IsValue (width : Width) (token : Text) : Prop :=
  ∃ value, Numeral.parse token = .ok value ∧ (width = .byte → value ≤ 0xff)

theorem readName_ne_writeName (width other : Width) : width.readName ≠ other.writeName := by
  cases width <;> cases other <;> decide

theorem writeName_inj {width other : Width} (h : width.writeName = other.writeName) :
    width = other := by
  revert h
  cases width <;> cases other <;> decide

namespace CarriedOut

variable {before after : Station} {accesses : List Memory.Request} {width : Width}
  {arguments : List Text}

/-- A read that succeeded had an address. -/
theorem isAddress
    (h : CarriedOut layout before (width.readName :: arguments) (.ok ()) accesses after) :
    ∃ token others, arguments = token :: others ∧ IsAddress token := by
  cases h with
  | blank htokens => cases htokens
  | read htokens htext hrange =>
    obtain ⟨-, rfl⟩ := List.cons.inj htokens
    exact ⟨_, _, rfl, _, htext, hrange⟩
  | write htokens =>
    obtain ⟨hname, -⟩ := List.cons.inj htokens
    exact absurd hname (readName_ne_writeName _ _)

theorem isValue
    (h : CarriedOut layout before (width.writeName :: arguments) (.ok ()) accesses after) :
    ∃ token valueToken others, arguments = token :: valueToken :: others ∧ IsAddress token ∧
      IsValue width valueToken := by
  cases h with
  | blank htokens => cases htokens
  | read htokens =>
    obtain ⟨hname, -⟩ := List.cons.inj htokens
    exact absurd hname.symm (readName_ne_writeName _ _)
  | write htokens htext hrange hvalue hholds =>
    obtain ⟨hname, rfl⟩ := List.cons.inj htokens
    obtain rfl := writeName_inj hname
    exact ⟨_, _, _, rfl, ⟨_, htext, hrange⟩, _, hvalue, hholds⟩

end CarriedOut

/-- A read with an address succeeds. -/
theorem execute_ok_of_isAddress {width : Width} {token : Text} {others : List Text}
    (htokens : Console.tokens line = width.readName :: token :: others) (haddress : IsAddress token)
    (before : Station) :
    ∃ after, (monitor.execute line).handle (console layout direct) before = .ok (.ok ()) after := by
  obtain ⟨address, htext, hrange⟩ := haddress
  obtain ⟨after, hshow, -⟩ := handle_shows width address before
  rw [← width.name_read] at htokens
  rw [Monitor.execute_of_read htokens htext hrange, Program.handle_bind_ok hshow]
  exact ⟨after, rfl⟩

theorem execute_ok_of_isValue {width : Width} {token valueToken : Text} {others : List Text}
    (htokens : Console.tokens line = width.writeName :: token :: valueToken :: others)
    (haddress : IsAddress token) (hvalue : IsValue width valueToken) (before : Station) :
    ∃ after, (monitor.execute line).handle (console layout direct) before = .ok (.ok ()) after := by
  obtain ⟨address, htext, hrange⟩ := haddress
  obtain ⟨value, hvalueText, hholds⟩ := hvalue
  obtain ⟨shown, hshow, -⟩ := handle_shows width address before
  obtain ⟨written, -, hchange, -⟩ := handle_changes width address value shown
  obtain ⟨after, hagain, -⟩ := handle_shows width address (shown.withChip written)
  rw [← width.name_write] at htokens
  rw [Monitor.execute_of_write htokens htext hrange hvalueText hholds, Monitor.showing,
    Program.handle_bind_ok hshow, Program.handle_bind_ok hchange, Program.handle_bind_ok hagain]
  exact ⟨after, rfl⟩

/-- **Memory commands, end to end.** Unless it is for one of the other four commands, a line is
carried out as its tokens say, which are the first three of the pieces between blanks and tabs. A
read succeeds if, and only if, there is an address, and a write if there are an address and a value
that fits. Else the error is that of the first check that fails. -/
theorem execute_memory (monitor : Monitor) (station : Station) (line : Text)
    (hmemory : ∀ name ∈ (Console.tokens line).head?,
      name ∉ (["help", "version", "reset", "bmo"] : List Text)) :
    let layout := monitor.config.layout
    let tokens := Console.tokens line
    tokens = ((line.splitOnP fun c => c = ' ' || c = '\t').filter (· ≠ [])).take 3 ∧
      ∃ outcome after,
        (monitor.execute line).handle (console layout direct) station = .ok outcome after ∧
        CarriedOut layout station tokens outcome
          (accessed layout (monitor.execute line) station) after ∧
        (∀ (width : Width) (arguments : List Text), tokens = width.readName :: arguments →
          (outcome = .ok () ↔ ∃ token others, arguments = token :: others ∧ IsAddress token)) ∧
        ∀ (width : Width) (arguments : List Text), tokens = width.writeName :: arguments →
          (outcome = .ok () ↔ ∃ token valueToken others,
            arguments = token :: valueToken :: others ∧ IsAddress token ∧
              IsValue width valueToken) := by
  intro layout tokens
  have hpieces : tokens = (Console.pieces line).take 3 :=
    congrArg (List.take 3) (Console.words_eq_pieces line)
  obtain ⟨outcome, after, hrun, hcarried⟩ := carriedOut monitor station hmemory
  refine ⟨hpieces, outcome, after, hrun, hcarried, ?_, ?_⟩
  · intro width arguments htokens
    constructor
    · rintro rfl
      -- Success leaves only the rows that have an address.
      rw [show Console.tokens line = _ from htokens] at hcarried
      exact hcarried.isAddress
    · rintro ⟨token, others, rfl, haddress⟩
      -- A run has one outcome.
      obtain ⟨found, hok⟩ := execute_ok_of_isAddress monitor htokens haddress station
      rw [hrun] at hok
      cases hok
      rfl
  · intro width arguments htokens
    constructor
    · rintro rfl
      rw [show Console.tokens line = _ from htokens] at hcarried
      exact hcarried.isValue
    · rintro ⟨token, valueToken, others, rfl, haddress, hvalue⟩
      obtain ⟨found, hok⟩ := execute_ok_of_isValue monitor htokens haddress hvalue station
      rw [hrun] at hok
      cases hok
      rfl

/-- A line with a tab in front, two blanks in the middle and one token too many. -/
theorem execute_memory_spread :
    let monitor : Monitor := ⟨.ofVariant .asm3242, ⟨[], []⟩, 0⟩
    let layout := monitor.config.layout
    let station : Station := { chip := { page := 3 } }
    let line : Text := "\tmwb 20000c  0Xff 7"
    (∀ name ∈ (Console.tokens line).head?,
        name ∉ (["help", "version", "reset", "bmo"] : List Text)) ∧
      ∃ after,
        (monitor.execute line).handle (console layout direct) station = .ok (.ok ()) after ∧
          CarriedOut layout station ["mwb", "20000c", "0Xff"] (.ok ())
            (accessed layout (monitor.execute line) station) after := by
  intro monitor layout station line
  have htokens : Console.tokens line = (["mwb", "20000c", "0Xff"] : List Text) := by decide +kernel
  have hmemory : ∀ name ∈ (Console.tokens line).head?,
      name ∉ (["help", "version", "reset", "bmo"] : List Text) := by
    rw [htokens]
    rintro name ⟨⟩
    decide
  obtain ⟨-, outcome, after, hrun, hcarried, -, hwrites⟩ :=
    execute_memory monitor station line hmemory
  have haddress : IsAddress ("20000c" : String).toList := ⟨0x20000c, by decide, by decide⟩
  have hvalue : IsValue .byte ("0Xff" : String).toList := ⟨0xff, by decide, by decide⟩
  obtain rfl := (hwrites .byte _ htokens).mpr ⟨_, _, _, rfl, haddress, hvalue⟩
  exact ⟨hmemory, after, hrun, htokens ▸ hcarried⟩

end Sim.Station

end DebugMonitor
