import DebugMonitor.Proofs.CommandLine.Bridge
import DebugMonitor.Proofs.Station.Detection

/-!
# Runs of the program

A run starts on a chip with nothing but code in it, identifies it, and serves the console with the
input. It has no other end than those of the monitor: with the input, or when the chip halts
(`exists_stop`). Whether the console goes through the chip's UART cannot be told from outside, as
long as no command looks at the UART's registers (`run_uart`).
-/

namespace DebugMonitor.CommandLine

open Sim Sim.Station
open Config (exists_base codeStart_le)

/-! ### The chip -/

/-- A chip is powered up with nothing but its code. -/
theorem exists_code_of_chipFrom {options : Options} {files : Files} {input rest : Bytes}
    {chip : Chip} (h : (options.chipFrom files.read).run.run input = (.ok chip, rest)) :
    ∃ code, chip = { code } := by
  rw [Options.chipFrom] at h
  cases himage : options.image with
  | some path =>
    rw [himage] at h
    simp only [ExceptT.run_bind, ExceptT.run_liftM, StateT.run_bind, StateT.run_map] at h
    generalize (files.read path).run input = contents at h
    obtain ⟨found, left⟩ := contents
    cases found with
    | ok image =>
      cases h
      exact ⟨_, rfl⟩
    | error cause => cases h
  | none =>
    simp only [himage] at h
    split at h
    · cases h
      exact ⟨_, rfl⟩
    · cases h

/-- The configuration before start-up is the one that detection will find. -/
theorem configOf_eq (chip : Chip) : configOf chip = chip.config := by
  have hread := chip.handle_readCode Variant.tokenOffset Variant.tokenSize
  have hrun : (Variant.readToken.handle Chip.bus).run chip = _ := hread
  rw [configOf, hrun]
  rfl

section Power

variable {options : Options} {files : Files} {input rest : Bytes} {chip : Chip}

/-- Without the UART the chip is powered up as it is. -/
theorem power_plain (h : (options.chipFrom files.read).run.run input = (.ok chip, rest)) :
    ({ options with uart := false }.power files.read).run.run input = (.ok chip, rest) := by
  have hchip : ({ options with uart := false }.chipFrom files.read).run.run input =
      (.ok chip, rest) := h
  simp only [Options.power, ExceptT.run_bind, StateT.run_bind, hchip]
  rfl

theorem power_uart (h : (options.chipFrom files.read).run.run input = (.ok chip, rest))
    {base : UInt32} (hbase : chip.config.uartBase = some base) :
    ({ options with uart := true }.power files.read).run.run input =
      (.ok (chip.attachUart base), rest) := by
  have hchip : ({ options with uart := true }.chipFrom files.read).run.run input =
      (.ok chip, rest) := h
  simp only [Options.power, ExceptT.run_bind, StateT.run_bind, hchip, configOf_eq]
  show StateT.run (ExceptT.run _) rest = _
  simp only [hbase]
  rfl

end Power

/-! ### Detection -/

/-- The station when its chip was detected. -/
def detected (station : Station) : Station := finalState (Config.detect.handle bus station)

/-- Detection never fails. -/
theorem handle_detect (station : Station) :
    Config.detect.handle bus station = .ok station.chip.config (detected station) := by
  have hwithin : station.chip.config.setUpUart.Within fun _ => True := by
    rw [Config.setUpUart]
    cases station.chip.config.uartBase with
    | none => trivial
    | some base => exact .ask trivial
  obtain ⟨⟨⟩, after, hafter⟩ := hwithin.returns
    (fun request _ => Chip.memory_answers station.chip.config.layout request) station.chip
  have hrun : Config.detect.handle bus station =
      .ok station.chip.config (station.withChip after) := by
    rw [handle_bus, onChip_apply, Chip.handle_detect, run_bind_ok hafter]
    rfl
  rw [detected, hrun]
  rfl

/-- Where there is a UART, detection is one write to its line settings. -/
theorem detected_eq (station : Station) {base : UInt32}
    (hbase : station.chip.config.uartBase = some base) {after : Chip}
    (h : Chip.memory station.chip.config.layout (.write (base + Uart.lineControl) Uart.line8N1)
      station.chip = .ok () after) :
    detected station = station.withChip after := by
  have hset : station.chip.config.setUpUart.handle (Chip.memory station.chip.config.layout)
      station.chip = .ok () after := by
    rw [Config.setUpUart, hbase, ← h]
    exact congrFun (Program.handle_ask _ _) station.chip
  rw [detected, handle_bus, onChip_apply, Chip.handle_detect, run_bind_ok hset]
  rfl

/-- Nothing is typed or shown on the way. -/
theorem detected_frame (station : Station) :
    detected station = station.withChip (detected station).chip := by
  rw [detected, handle_bus, onChip_apply]
  cases Config.detect.handle Chip.bus station.chip <;> rfl

/-- Detection programs the UART, or else the data under it. -/
theorem bridged_detected {chip : Chip} {base : UInt32} (hbase : chip.config.uartBase = some base)
    (hshows : chip.config.layout.Shows base) (hfits : chip.config.layout.Fits chip)
    (huart : chip.uart = none) (terminal : Terminal) :
    Bridged chip.config.layout base [] (detected { chip := chip.attachUart base, terminal })
      (detected { chip, terminal }) := by
  have hcovered : Chip.Covered chip.config.layout base [] (chip.attachUart base) chip :=
    ⟨hfits, huart, ⟨0, rfl⟩, rfl, fun _ _ => rfl⟩
  obtain ⟨⟨⟩, bare, hbare⟩ := Chip.memory_answers chip.config.layout
    (.write (base + Uart.lineControl) Uart.line8N1) chip
  obtain ⟨wired, hwired, hafter⟩ :=
    (Chip.inStep_memory_covered hshows _ (.inr ⟨_, rfl⟩)).returns hcovered hbare
  rw [detected_eq { chip := chip.attachUart base, terminal } hbase hwired,
    detected_eq { chip, terminal } hbase hbare]
  exact ⟨hafter, rfl, rfl, rfl⟩

/-! ### Serving -/

/-- The monitor that a run serves the console with. It is patient enough for the whole input. -/
def monitorFor (chip : Chip) (input : Bytes) : Monitor :=
  ⟨chip.config, build, input.length + 1⟩

/-- The bytes that commands and bulk requests access when the console is at the keyboard. -/
def accesses (chip : Chip) (input : Bytes) : List Memory.Request :=
  let serve : Program Console Empty := (monitorFor chip input).serve
  let station := detected { chip, terminal := { typed := input } }
  (serve.trace (console chip.config.layout atKeyboard) station).filterMap Console.Request.memory?

theorem channel_plain {options : Options} (huart : options.uart = false) (config : Config)
    (patience : Nat) :
    options.channel config patience (fun run => run) direct = atKeyboard := by
  simp only [Options.channel, huart]
  rfl

theorem channel_uart {options : Options} (huart : options.uart = true) {config : Config}
    {base : UInt32} (hbase : config.uartBase = some base) (patience : Nat) :
    options.channel config patience (fun run => run) direct =
      overBridge config.layout base patience := by
  simp only [Options.channel, huart, hbase]
  rfl

/-- Detection comes first, and then the monitor serves the console. -/
theorem serve_eq (options : Options) (patience : Nat) (station : Station) :
    options.serve patience (fun run => run) direct station =
      (Monitor.serve ⟨station.chip.config, build, patience⟩).handle
        (console station.chip.config.layout
          (options.channel station.chip.config patience (fun run => run) direct))
        (detected station) := by
  rw [Options.serve, run_bind_ok (handle_detect station)]
  rfl

/-- What a run reports is what serving has come to. -/
theorem run_of_serve {options : Options} {files : Files} {input rest : Bytes} {chip : Chip}
    (hpower : (options.power files.read).run.run input = (.ok chip, rest)) {stop : Stop}
    {after : Station}
    (hserve : ((monitorFor chip rest).serve : Program Console Empty).handle
      (console chip.config.layout
        (options.channel chip.config (rest.length + 1) (fun run => run) direct))
      (detected { chip, terminal := { typed := rest } }) = .error stop after) :
    options.run files input = { code := exitCode stop, output := after.terminal.output } := by
  have hserved : (options.serve (rest.length + 1) (fun run => run) direct).run
      { chip, terminal := { typed := rest } } = .error stop after :=
    (serve_eq options (rest.length + 1) _).trans hserve
  rw [Options.run, hpower]
  simp only [hserved]

section Outcome

variable {options : Options} {files : Files} {input rest : Bytes} {chip : Chip} {stop : Stop}
  {after : Station}

theorem run_plain (h : (options.chipFrom files.read).run.run input = (.ok chip, rest))
    (hserve : ((monitorFor chip rest).serve : Program Console Empty).handle
      (console chip.config.layout atKeyboard) (detected { chip, terminal := { typed := rest } }) =
        .error stop after) :
    { options with uart := false }.run files input =
      { code := exitCode stop, output := after.terminal.output } := by
  apply run_of_serve (power_plain h)
  rw [channel_plain rfl]
  exact hserve

theorem run_overBridge (h : (options.chipFrom files.read).run.run input = (.ok chip, rest))
    {base : UInt32} (hbase : chip.config.uartBase = some base)
    (hserve : ((monitorFor chip rest).serve : Program Console Empty).handle
      (console chip.config.layout (overBridge chip.config.layout base (rest.length + 1)))
      (detected { chip := chip.attachUart base, terminal := { typed := rest } }) =
        .error stop after) :
    { options with uart := true }.run files input =
      { code := exitCode stop, output := after.terminal.output } := by
  have hconfig : (chip.attachUart base).config = chip.config := rfl
  apply run_of_serve (power_uart h hbase)
  rw [hconfig, channel_uart rfl hbase]
  exact hserve

end Outcome

/-- **A run ends with its input, or with the chip,** and turns say which. -/
theorem exists_stop (α : Type) (monitor : Monitor) (station : Station)
    (heditor : station.editor = {}) (hpatience : station.terminal.typed.length < monitor.patience)
    (cut : Cut Turn.encode) (hstream : cut.stream = station.terminal.typed.map enterKey) :
    ∃ stop after,
      (monitor.serve : Program Console α).handle (console monitor.config.layout atKeyboard)
        station = .error stop after ∧
      (stop = .halted ∧ (∃ turn ∈ cut.items, turn.Resets) ∨
        stop = .inputExhausted ∧ ∀ turn ∈ cut.items, ¬ turn.Resets) := by
  have hlength : (cooked station).terminal.typed.length < monitor.patience := by
    show (station.terminal.typed.map enterKey).length < _
    rw [List.length_map]
    exact hpatience
  have hended := serve_ended α monitor (cooked station) heditor hlength cut hstream
  -- The keyboard only sees other bytes typed: what stops one run stops the other.
  generalize hfinished : (monitor.serve : Program Console α).handle
    (console monitor.config.layout direct) (cooked station) = finished at hended
  cases hended with
  | exhausted hgoing hused =>
    obtain ⟨raw, hraw, -⟩ := stopped_atKeyboard hfinished
    exact ⟨_, raw, hraw, .inr ⟨rfl, hgoing⟩⟩
  | @halted after before later turn hturns hgoing hresets hunread =>
    obtain ⟨raw, hraw, -⟩ := stopped_atKeyboard hfinished
    have hmem : turn ∈ cut.items := hturns ▸ List.mem_append_right before List.mem_cons_self
    exact ⟨_, raw, hraw, .inl ⟨rfl, turn, hmem, hresets⟩⟩

/-- The console is served over the bridge as it is at the keyboard. -/
theorem serve_overBridge {chip : Chip} {base : UInt32} (hbase : chip.config.uartBase = some base)
    (hshows : chip.config.layout.Shows base) (hfits : chip.config.layout.Fits chip)
    (huart : chip.uart = none) {input : Bytes}
    (hspares : ∀ request ∈ accesses chip input, Uart.Outside base request.address)
    {stop : Stop} {after : Station}
    (hserve : ((monitorFor chip input).serve : Program Console Empty).handle
      (console chip.config.layout atKeyboard) (detected { chip, terminal := { typed := input } }) =
        .error stop after) (hstop : stop ≠ .stalled) :
    ∃ wired, ((monitorFor chip input).serve : Program Console Empty).handle
        (console chip.config.layout (overBridge chip.config.layout base (input.length + 1)))
        (detected { chip := chip.attachUart base, terminal := { typed := input } }) =
      .error stop wired ∧ wired.terminal.output = after.terminal.output := by
  have hflushes : Flushes true ((monitorFor chip input).serve : Program Console Empty) := .serve _
  have hbridging := bridging_handle input.length hshows hflushes
    (bridged_detected hbase hshows hfits huart { typed := input }) nofun
    fun request hrequest access haccess =>
      .inl (hspares access (List.mem_filterMap.mpr ⟨request, hrequest, haccess⟩))
  rw [hserve] at hbridging
  exact hbridging.stopped hstop

/-- **The UART is invisible from outside.** On a chip that is known, the outcome of a run is the
same whether the console goes through the UART or not, as long as no command and no bulk request
accesses the UART's registers: the same output, to the last byte, and the same code, which is 101 if
the chip halts and 0 if the input ends first. -/
theorem run_uart (options : Options) (files : Files) {input rest : Bytes} {chip : Chip}
    (hchip : (options.chipFrom files.read).run.run input = (.ok chip, rest))
    (hknown : chip.variant ≠ .unknown)
    (hspares : ∀ base ∈ chip.config.uartBase, ∀ request ∈ accesses chip rest,
      Uart.Outside base request.address) :
    ∃ cut : Cut Turn.encode, cut.stream = rest.map enterKey ∧
      ∃ (code : Nat) (output : Bytes),
        (code = 101 ∧ (∃ turn ∈ cut.items, turn.Resets) ∨
          code = 0 ∧ ∀ turn ∈ cut.items, ¬ turn.Resets) ∧
        { options with uart := false }.run files input = { code, output } ∧
        { options with uart := true }.run files input = { code, output } := by
  obtain ⟨base, hbase, hshows⟩ := exists_base hknown
  obtain ⟨cut, hcut⟩ := Turn.prefixCode.exists_cut_iff (rest.map enterKey)
  have hstream : cut.stream = rest.map enterKey := (hcut cut).mpr rfl
  obtain ⟨cells, rfl⟩ := exists_code_of_chipFrom hchip
  -- The run without the UART decides how it ends.
  let station : Station := detected { chip := { code := cells }, terminal := { typed := rest } }
  have hframe : station = _ := detected_frame _
  have htyped : station.terminal.typed = rest := by rw [hframe]; rfl
  have heditor : station.editor = {} := by rw [hframe]; rfl
  obtain ⟨stop, after, hserve, hstop⟩ := exists_stop Empty (monitorFor { code := cells } rest)
    station heditor (htyped ▸ Nat.lt_succ_self _) cut (htyped ▸ hstream)
  -- It does not give up, so the run through the UART, which may wait more often, ends alike.
  have hnot : stop ≠ .stalled := by
    rintro rfl
    rcases hstop with ⟨hhalted, -⟩ | ⟨hexhausted, -⟩
    · cases hhalted
    · cases hexhausted
  obtain ⟨wired, hwired, houtput⟩ := serve_overBridge hbase hshows
    ⟨codeStart_le _, fun _ => rfl⟩ rfl (hspares base hbase) hserve hnot
  refine ⟨cut, hstream, exitCode stop, after.terminal.output, ?_, ?_, ?_⟩
  · rcases hstop with ⟨rfl, hresets⟩ | ⟨rfl, hgoing⟩
    · exact .inl ⟨rfl, hresets⟩
    · exact .inr ⟨rfl, hgoing⟩
  · exact run_plain hchip hserve
  · rw [← houtput]
    exact run_overBridge hchip hbase hwired

/-- The input ends in the middle of a bulk session, on a chip whose name is not in capitals. -/
theorem run_uart_unfinished :
    let options : Options := { chip := some "asm1042a" }
    let files : Files := {}
    let input := Text.utf8 "mwb 20 41\nbmo\nr"
    let chip := Chip.withToken (Text.utf8 "2104B_FW")
    (options.chipFrom files.read).run.run input = (.ok chip, input) ∧
      chip.variant ≠ .unknown ∧
      (∀ base ∈ chip.config.uartBase, ∀ request ∈ accesses chip input,
        Uart.Outside base request.address) ∧
      { options with uart := true }.run files input =
        { options with uart := false }.run files input := by
  intro options files input chip
  have hchip : (options.chipFrom files.read).run.run input = (.ok chip, input) := rfl
  have hknown : chip.variant ≠ .unknown := by decide +kernel
  have hbase : chip.config.uartBase = some 0xf100 := by decide +kernel
  have hspares : ∀ base ∈ chip.config.uartBase, ∀ request ∈ accesses chip input,
      Uart.Outside base request.address := by
    intro base hmem
    rw [hbase, Option.mem_some_iff] at hmem
    subst hmem
    decide +kernel
  obtain ⟨-, -, code, output, -, hplain, hwired⟩ := run_uart options files hchip hknown hspares
  exact ⟨hchip, hknown, hspares, hwired.trans hplain.symm⟩

end DebugMonitor.CommandLine
