import DebugMonitor.Proofs.Console.OnBus
import DebugMonitor.Proofs.Memory.BusCycles
import DebugMonitor.Proofs.Memory.DataCell
import DebugMonitor.Proofs.Station.Turns

/-!
# Resets

A reset is the one command that does not come back. It announces itself, flushes the channel, and
then changes a bit or two in the control block of the chip, each in a byte that it has read before;
and then it halts. `execute_resets` says this of every line that asks for it, with everything that
the run asks for in its order, and says of every other line that it cannot halt the chip at all.
-/

namespace DebugMonitor

open Memory (reading writing)
open Program (Never)

variable {α : Type}

/-! ### Exchanges of a console -/

namespace Console

/-- A byte that was sent. -/
def sent (b : UInt8) : Exchange Console := ⟨.serial (.send b), ()⟩

/-- A flush that has come back. -/
def flushed : Exchange Console := ⟨.serial .flush, ()⟩

/-- A byte of the memory, as the console accesses it. -/
def accessed : Exchange Memory → Exchange Console
  | ⟨request, answer⟩ => ⟨.memory request, answer⟩

end Console

/-! ### What a reset accesses -/

namespace Monitor

/-- The accesses of a reset, by where the control block is and whether the next boot is from ROM:
bit 0 of the byte at its start is cleared, and bit 0 of the third byte is set. -/
inductive Resets : Option UInt32 → Bool → List (Exchange Memory) → Prop where
  | alone (toRom : Bool) : Resets none toRom []
  | here (base : UInt32) (execution : UInt8) :
      Resets (some base) false
        [reading (base + 2) execution, writing (base + 2) (execution ||| 0x01)]
  | toRom (base : UInt32) (mode execution : UInt8) :
      Resets (some base) true
        [reading base mode, writing base (mode &&& 0xfe),
          reading (base + 2) execution, writing (base + 2) (execution ||| 0x01)]

/-- What a reset says, byte by byte. -/
theorem wire_resetText (arguments : List Text) :
    (resetText (!arguments.isEmpty)).wire =
      Text.utf8 (if arguments = [] then "Resetting chip...\r\n"
        else "Resetting chip to mask ROM...\r\n") := by
  cases arguments with
  | nil =>
    rw [if_pos rfl]
    decide
  | cons token rest =>
    rw [if_neg (List.cons_ne_nil token rest)]
    show (resetText true).wire = _
    decide

/-- The accesses of a reset are those of the table. -/
theorem resets_of_returns (monitor : Monitor) {toRom : Bool} {accesses : List (Exchange Memory)}
    (h : (monitor.resetRequests toRom).Returns accesses ()) :
    Resets monitor.config.controlBase toRom accesses := by
  unfold resetRequests at h
  -- A chip without a control block is left alone.
  cases hbase : monitor.config.controlBase with
  | none =>
    rw [hbase] at h
    obtain ⟨rfl, -⟩ := Program.returns_pure_iff.mp h
    exact .alone toRom
  | some base =>
    rw [hbase] at h
    cases toRom with
    | false =>
      obtain ⟨execution, _, rfl, hwrite⟩ := Program.returns_ask_bind_iff.mp h
      obtain rfl := Program.returns_ask_iff.mp hwrite
      exact .here base execution
    | true =>
      obtain ⟨mode, _, rfl, hclear⟩ := Program.returns_ask_bind_iff.mp h
      obtain ⟨⟨⟩, _, rfl, hread⟩ := Program.returns_ask_bind_iff.mp hclear
      obtain ⟨execution, _, rfl, hwrite⟩ := Program.returns_ask_bind_iff.mp hread
      obtain rfl := Program.returns_ask_iff.mp hwrite
      have hmode : base + nextModeRegister = base := UInt32.add_zero base
      rw [hmode]
      exact .toRom base mode execution

end Monitor

/-! ### Transcripts and calls at a station -/

namespace Sim.Station

variable {layout : Layout} {station : Station}

theorem transcript_sendAll (bytes : Bytes) (station : Station) :
    (Console.sendAll bytes).transcript (console layout direct) station =
      bytes.map Console.sent := by
  induction bytes generalizing station with
  | nil => rfl
  | cons b rest ih =>
    rw [Console.sendAll, Program.transcript_bind_ok (handle_send b station), ih]
    rfl

/-- What is accessed is what the chip is asked for. -/
theorem transcript_memory (p : Program Memory α) (station : Station) :
    (Console.memory p).transcript (console layout direct) station =
      (p.transcript (Chip.memory layout) station.chip).map Console.accessed := by
  induction p generalizing station with
  | done a => rfl
  | stalled => rfl
  | call request next ih =>
    show (Program.call (I := Console) (.memory request) fun answer =>
      Console.memory (next answer)).transcript _ station = _
    rw [Program.transcript, Program.transcript, console_memory, onChip_apply]
    cases Chip.memory layout request station.chip with
    | ok answer chip => exact congrArg _ (ih answer (station.withChip chip))
    | error stop chip => rfl

/-- Nothing but a halt halts the chip. -/
theorem eq_halt_of_halted {request : Console.Request} {before after : Station}
    (h : console layout direct request before = .error .halted after) : request = .halt := by
  cases request with
  | halt => rfl
  | memory request =>
    obtain ⟨answer, chip, hanswer⟩ := Chip.memory_answers layout request before.chip
    rw [console_memory, onChip_apply, hanswer] at h
    cases h
  | serial request =>
    cases request with
    | send b => cases h
    | flush => cases h
    | receive =>
      cases htyped : before.terminal.typed with
      | nil =>
        have hnone : Console.receive.handle (console layout direct) before =
            .error .inputExhausted before := handle_receive_nil htyped
        rw [Console.receive, Console.ask, Program.handle_ask, h] at hnone
        cases hnone
      | cons b rest =>
        have hsome : Console.receive.handle (console layout direct) before =
            .ok b (before.withTyped rest) := handle_receive htyped
        rw [Console.receive, Console.ask, Program.handle_ask, h] at hsome
        cases hsome
  | editor => cases h
  | setEditor editor => cases h

/-- A run that ends with a halt has asked for it, and for nothing after that. -/
theorem trace_of_halted {p : Program Console α} {after : Station}
    (h : p.handle (console layout direct) station = .error .halted after) :
    p.trace (console layout direct) station =
      (p.transcript (console layout direct) station).map Sigma.fst ++ [.halt] := by
  obtain ⟨asked, middle, hasked, htrace⟩ := Program.trace_of_error h nofun
  obtain rfl := eq_halt_of_halted hasked
  exact htrace

/-! ### Leaving a station -/

variable (text : Text) {requests : Program Memory Unit}

/-- On the way out something is said and flushed, and then the memory is accessed. -/
theorem transcript_leave {chip : Chip}
    (h : requests.handle (Chip.memory layout) station.chip = .ok () chip) :
    (Console.leave text requests : Program Console α).transcript (console layout direct) station =
      text.wire.map Console.sent ++ Console.flushed ::
        (requests.transcript (Chip.memory layout) station.chip).map Console.accessed := by
  have hmemory := handle_memory_ok (station.display text.wire).flush h
  rw [Console.leave, Program.transcript_bind_ok (handle_say text station),
    Program.transcript_bind_ok (handle_flush _), Program.transcript_bind_ok hmemory, Console.say,
    transcript_sendAll, transcript_memory]
  show _ ++ (_ :: (_ ++ [])) = _
  rw [List.append_nil]
  rfl

/-- On the bus there is nothing but the accesses, and then the halt. -/
theorem calls_leave {σ : Type} {bus : Handler Bus (EStateM Stop σ)} (desk : Desk) {s t : σ}
    (h : (layout.lower requests).handle bus s = .ok () t) :
    Console.calls layout bus desk (Console.leave text requests : Program Console α) s =
      (layout.lower requests).trace bus s ++ [.halt] := by
  let said := desk.display text.wire
  let flushed : Desk :=
    { said with terminal := { said.terminal with flushes := said.terminal.flushes + 1 } }
  -- Neither what is said nor the flush makes any calls.
  have hsay : Console.onBus layout desk (Console.say text) = pure (.ok ((), said)) :=
    Console.onBus_of_sends layout desk (.sendAll _)
  have hmemory : Console.onBus layout flushed (Console.memory requests) =
      layout.lower requests >>= fun a => pure (.ok (a, flushed)) := by
    rw [Console.onBus_of_sends layout flushed (.memory requests), Layout.lower_bind, bind_assoc]
    rfl
  have hsaid : (Console.onBus layout desk (Console.say text)).handle bus s =
      .ok (.ok ((), said)) s := by
    rw [hsay]
    rfl
  have hflushed : (Console.onBus layout said Console.flush).handle bus s =
      .ok (.ok ((), flushed)) s := rfl
  have hasked : (Console.onBus layout flushed (Console.memory requests)).handle bus s =
      .ok (.ok ((), flushed)) t := by
    rw [hmemory, Program.handle_bind_ok h]
    rfl
  have hcalls : Console.calls layout bus flushed (Console.memory requests) s =
      (layout.lower requests).trace bus s := by
    rw [Console.calls, hmemory, Program.trace_bind_pure]
  rw [Console.leave, Console.calls_bind_ok bus hsaid, Console.calls_bind_ok bus hflushed,
    Console.calls_bind_ok bus hasked, hcalls, Console.calls_halt, Console.calls, hsay]
  rfl

/-! ### Lines that ask for no reset -/

variable (monitor : Monitor)

/-- A quiet program does not halt. -/
theorem never_halt_of_quiet {p : Program Console α} (hp : Quiet p) :
    Never (.halt : Console.Request) p := .of_within hp nofun

theorem never_halt_serve (session : Bulk.Session) (patience : Nat) :
    Never (.halt : Console.Request) (session.serve patience) := by
  induction patience generalizing session with
  | zero => exact .stalled
  | succ patience ih =>
    have hreceive : Console.receive.Within fun request : Console.Request => request ≠ .halt :=
      .ask nofun
    have hfeed (b : UInt8) : Quiet (session.feed b) := .bind (Quiet.next _ b _) fun _ => .pure _
    refine .bind (.of_within hreceive fun h => h rfl) fun b => ?_
    refine .bind (never_halt_of_quiet (hfeed b)) fun ⟨flow, session⟩ => ?_
    cases flow with
    | exit => exact .pure ()
    | more => exact ih session

/-- No other line has a way to a halt, whatever the chip and the terminal answer. -/
theorem never_halt_execute {line : Text}
    (h : (Console.tokens line).head? ≠ some ("reset" : Text)) :
    Never (.halt : Console.Request) (monitor.execute line) := by
  by_cases hbulk : (Console.tokens line).head? = some ("bmo" : Text)
  · obtain ⟨arguments, htokens⟩ := List.head?_eq_some_iff.mp hbulk
    rw [execute_bulk monitor htokens]
    refine .bind (.bind (never_halt_of_quiet (.say _)) fun _ => ?_) fun _ => .pure _
    exact never_halt_serve _ _
  · rcases monitor.execute_looking_or_showing h hbulk with
      hlooks | ⟨width, address, value, -, hshowing⟩
    · exact never_halt_of_quiet hlooks.quiet
    · exact hshowing ▸ never_halt_of_quiet (.showing width address value)

/-! ### Resets on data cells -/

/-- Where the control block is made of data cells, a reset changes its bits and nothing else. -/
theorem handle_requestReset_cells {chip : Chip} {base : UInt32} (hmode : chip.IsCell layout base)
    (hexecution : chip.IsCell layout (base + 2)) (toRom : Bool) :
    let cleared := if toRom then chip.poke base (chip.peek base &&& 0xfe) else chip
    ∃ switches, (Monitor.requestReset base toRom).handle (Chip.memory layout) chip =
      .ok () { cleared.poke (base + 2) (chip.peek (base + 2) ||| 0x01) with
        pageSwitches := switches } := by
  intro cleared
  cases toRom with
  | false => exact Chip.handle_update_cell hexecution (· ||| 0x01)
  | true =>
    obtain ⟨once, hclear⟩ := Chip.handle_update_cell hmode (· &&& 0xfe)
    obtain ⟨switches, hset⟩ :=
      Chip.handle_update_cell (hexecution.of_data cleared.data once) (· ||| 0x01)
    -- The bits are in different bytes.
    have hne : base ≠ base + 2 := by simp
    have hkept : cleared.peek (base + 2) = chip.peek (base + 2) :=
      (chip.peek_poke base (base + 2) _).trans (if_neg hne)
    have hmodeRegister : base + Monitor.nextModeRegister = base := UInt32.add_zero base
    have hparts : Monitor.requestReset base true =
        (Memory.read (base + Monitor.nextModeRegister) >>= fun mode =>
          Memory.write (base + Monitor.nextModeRegister) (mode &&& 0xfe)) >>= fun _ =>
        Memory.read (base + 2) >>= fun execution =>
          Memory.write (base + 2) (execution ||| 0x01) := rfl
    refine ⟨switches, ?_⟩
    rw [hparts, hmodeRegister, Program.handle_bind_ok hclear, ← hkept]
    exact hset

/-- What the accesses of a reset do to the chip. -/
theorem chip_of_resetRequests (monitor : Monitor) {toRom : Bool} {chip last : Chip}
    (h : (monitor.resetRequests toRom).handle (Chip.memory layout) chip = .ok () last) :
    (monitor.config.controlBase = none → last = chip) ∧
      ∀ base, monitor.config.controlBase = some base →
        chip.IsCell layout base → chip.IsCell layout (base + 2) →
        let cleared := if toRom then chip.poke base (chip.peek base &&& 0xfe) else chip
        ∃ switches, last = { cleared.poke (base + 2) (chip.peek (base + 2) ||| 0x01) with
          pageSwitches := switches } := by
  constructor
  · intro hbase
    simp only [Monitor.resetRequests, hbase] at h
    cases h
    rfl
  · intro base hbase hmode hexecution cleared
    simp only [Monitor.resetRequests, hbase] at h
    obtain ⟨switches, hcells⟩ := handle_requestReset_cells hmode hexecution toRom
    rw [hcells] at h
    cases h
    exact ⟨switches, rfl⟩

/-! ### Lines -/

/-- **A line that asks for a reset is the end of the run, and no other line is.** It sends one text,
flushes once, accesses what there is of the control block, and halts: these are all the requests, in
this order, and on the bus the groups of the accesses come before the halt. With nothing but data
cells in the way, the chip keeps everything but the bits in question and the count of page switches.
Whatever it is answered, any other line never asks for a halt. -/
theorem execute_resets (monitor : Monitor) (line : Text) (station : Station) :
    let layout := monitor.config.layout
    let chip := station.chip
    let ended := (monitor.execute line).handle (console layout direct) station
    let transcript := (monitor.execute line).transcript (console layout direct) station
    (∀ arguments, Console.tokens line = ("reset" : Text) :: arguments →
      let text : Text := if arguments = [] then "Resetting chip...\r\n"
        else "Resetting chip to mask ROM...\r\n"
      ∃ (accesses : List (Exchange Memory)) (groups : List (List (Exchange Bus))) (after : Station),
        ended = .error .halted after ∧
        transcript = text.utf8.map Console.sent ++ Console.flushed ::
          accesses.map Console.accessed ∧
        (monitor.execute line).trace (console layout direct) station =
          transcript.map Sigma.fst ++ [.halt] ∧
        Monitor.Resets monitor.config.controlBase (!arguments.isEmpty) accesses ∧
        List.Forall₂ layout.Group accesses groups ∧
        Console.calls layout Chip.bus station.desk (monitor.execute line) chip =
          groups.flatten.map Sigma.fst ++ [.halt] ∧
        after.terminal = { station.terminal with
          shown := text.utf8.reverse ++ station.terminal.shown
          flushes := station.terminal.flushes + 1 } ∧
        after.editor = station.editor ∧
        (monitor.config.controlBase = none → after.chip = chip) ∧
        ∀ base, monitor.config.controlBase = some base →
          chip.IsCell layout base → chip.IsCell layout (base + 2) →
          let cleared := if arguments = [] then chip else chip.poke base (chip.peek base &&& 0xfe)
          ∃ switches, after.chip =
            { cleared.poke (base + 2) (chip.peek (base + 2) ||| 0x01) with
              pageSwitches := switches }) ∧
    ((Console.tokens line).head? ≠ some ("reset" : Text) →
      Never (.halt : Console.Request) (monitor.execute line) ∧
        ∀ after, ended ≠ .error .halted after) := by
  intro layout chip ended transcript
  constructor
  · intro arguments htokens text
    let toRom := !arguments.isEmpty
    let requests := monitor.resetRequests toRom
    obtain ⟨said, hsaid, hexecute⟩ : ∃ said : Text, said.wire = text.utf8 ∧
        monitor.execute line = Console.leave said requests :=
      ⟨Monitor.resetText toRom, Monitor.wire_resetText arguments,
        (monitor.execute_of_reset htokens).trans (monitor.reset_eq toRom)⟩
    -- From here on the text is as good as any other.
    clear_value text
    obtain ⟨⟨⟩, last, hrequests⟩ := (monitor.resetRequests_within toRom).returns
      (fun request _ => Chip.memory_answers layout request) chip
    have hlower : (layout.lower requests).handle Chip.bus chip = .ok () last :=
      (congrFun (Chip.handle_lower layout requests) chip).trans hrequests
    obtain ⟨groups, hgroups, -, htrace⟩ := Layout.lower_groups hlower
    have hended : (monitor.execute line).handle (console layout direct) station =
        .error .halted (station.left said last) := by
      rw [hexecute]
      exact handle_leave said hrequests
    have htranscript : (monitor.execute line).transcript (console layout direct) station =
        text.utf8.map Console.sent ++ Console.flushed ::
          (requests.transcript (Chip.memory layout) chip).map Console.accessed := by
      rw [hexecute, ← hsaid]
      exact transcript_leave said hrequests
    have hcalls : Console.calls layout Chip.bus station.desk (monitor.execute line) chip =
        groups.flatten.map Sigma.fst ++ [.halt] := by
      rw [hexecute, ← htrace]
      exact calls_leave said station.desk hlower
    obtain ⟨halone, hcells⟩ := chip_of_resetRequests monitor hrequests
    refine ⟨requests.transcript (Chip.memory layout) chip, groups, _, hended, htranscript,
      trace_of_halted hended, monitor.resets_of_returns (Program.returns_transcript hrequests),
      hgroups, hcalls, ?_, rfl, halone, ?_⟩
    · rw [← hsaid]
      rfl
    · intro base hbase hmode hexecution
      cases arguments with
      | nil => exact hcells base hbase hmode hexecution
      | cons token rest => exact hcells base hbase hmode hexecution
  · intro hother
    have hnever := never_halt_execute monitor hother
    refine ⟨hnever, fun after hhalted => ?_⟩
    have htrace := trace_of_halted hhalted
    have hmem : .halt ∈ (monitor.execute line).trace (console layout direct) station := by
      rw [htrace]
      exact List.mem_append_right _ List.mem_cons_self
    exact hnever.not_mem_trace station hmem

/-- The second token may be any text. The control block is in the first page, whichever page the
chip has selected, and its other bits stay. -/
theorem execute_resets_rom :
    let monitor : Monitor := ⟨.ofVariant .asm1142, ⟨[], []⟩, 0⟩
    let layout := monitor.config.layout
    let blank : Chip := Chip.attachUart { page := 3 } 0xf100
    let chip := (blank.poke 0xf340 0x13).poke 0xf342 0x40
    let station : Station := { chip }
    let line : Text := "  reset reset"
    chip.IsCell layout 0xf340 ∧ chip.IsCell layout 0xf342 ∧
      (∃ accesses after switches,
        (monitor.execute line).handle (console layout direct) station = .error .halted after ∧
        (monitor.execute line).transcript (console layout direct) station =
          (Text.utf8 "Resetting chip to mask ROM...\r\n").map Console.sent ++ Console.flushed ::
            accesses.map Console.accessed ∧
        Monitor.Resets (some 0xf340) true accesses ∧
        after.chip =
          { (chip.poke 0xf340 0x12).poke 0xf342 0x41 with pageSwitches := switches }) ∧
      Never (.halt : Console.Request) (monitor.execute "resets") := by
  intro monitor layout blank chip station line
  have hmode : chip.IsCell layout 0xf340 := by decide +kernel
  have hexecution : chip.IsCell layout 0xf342 := by decide +kernel
  have htokens : Console.tokens line = ("reset" : Text) :: ["reset"] := by decide +kernel
  obtain ⟨accesses, -, after, hended, htranscript, -, haccesses, -, -, -, -, -, hcells⟩ :=
    (execute_resets monitor line station).1 ["reset"] htokens
  obtain ⟨switches, hafter⟩ := hcells 0xf340 rfl hmode hexecution
  have hmodeBits : chip.peek 0xf340 &&& 0xfe = 0x12 := by decide +kernel
  have hexecutionBits : chip.peek 0xf342 ||| 0x01 = 0x41 := by decide +kernel
  refine ⟨hmode, hexecution, ⟨accesses, after, switches, hended, htranscript, haccesses, ?_⟩,
    ((execute_resets monitor "resets" station).2 (by decide +kernel)).1⟩
  rw [hafter, if_neg (List.cons_ne_nil _ _), hmodeBits]
  show { (chip.poke 0xf340 0x12).poke 0xf342 (chip.peek 0xf342 ||| 0x01) with
    pageSwitches := switches } = _
  rw [hexecutionBits]

end Sim.Station

end DebugMonitor
