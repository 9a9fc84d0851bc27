import DebugMonitor.Proofs.CommandLine.Buffering
import DebugMonitor.Proofs.CommandLine.Run
import DebugMonitor.Proofs.Patience

/-!
# The program as a monitor with a script

Without the UART there is nothing between the program's streams and the monitor but the Enter key.
So a run of the program is a run of the monitor at a terminal where the input is typed with a
carriage return for every line feed: on the chip that the code image makes, and with the build that
the program reports (`run_scripted`). The run ends with the input or with the chip, whatever the
patience, and everything the monitor has sent is out by then, even where the output holds bytes
back.
-/

namespace DebugMonitor.CommandLine

open Sim Sim.Station

/-! ### The code -/

/-- Where the code of the chip comes from: the bytes of an image from the start of code space on, or
the token that belongs to the name of a chip, in its place. What the image leaves of the input is
typed. -/
inductive Loads (options : Options) (files : Files) (input : Bytes) :
    UInt32 → Bytes → Bytes → Prop where
  | image {path : Text} {contents rest : Bytes} (given : options.image = some path)
      (read : (files.read path).run input = (.ok contents, rest)) :
      Loads options files input 0 contents rest
  | name {variant : Variant} {token : Bytes} (noImage : options.image = none)
      (named : Variant.ofName? (options.chip.getD "ASM2142") = some variant)
      (token_eq : variant.token? = some token) : Loads options files input 0x87 token input

/-- What the options load is what the chip is powered up with. -/
theorem Loads.chipFrom {options : Options} {files : Files} {input rest image : Bytes}
    {offset : UInt32} (h : Loads options files input offset image rest) :
    (options.chipFrom files.read).run.run input = (.ok (.loadCode {} offset image), rest) := by
  rw [Options.chipFrom]
  cases h with
  | image hgiven hread =>
    rw [hgiven]
    simp only [ExceptT.run_bind, ExceptT.run_liftM, StateT.run_bind, StateT.run_map, hread]
    rfl
  | name hnone hnamed htoken =>
    have hname : Variant.ofName? (options.chip.getD defaultChip) = some _ := hnamed
    rw [hnone]
    simp only [hname, Option.bind_some, htoken]
    rfl

/-! ### The monitor on it -/

/-- How a run ends does not depend on the patience, as long as that is enough for the input. -/
theorem exists_end (config : Config) (build : Build) (station : Station)
    (heditor : station.editor = {}) :
    ∃ stop after, (stop = .inputExhausted ∧ after.terminal.typed = [] ∨ stop = .halted) ∧
      ∀ patience > station.terminal.typed.length,
        (Monitor.serve ⟨config, build, patience⟩ : Program Console Empty).handle
          (console config.layout direct) station = .error stop after := by
  let monitor : Monitor := ⟨config, build, station.terminal.typed.length + 1⟩
  obtain ⟨cut, hcut⟩ := Turn.prefixCode.exists_cut_iff station.terminal.typed
  have hended := serve_ended Empty monitor station heditor (Nat.lt_succ_self _) cut
    ((hcut cut).mpr rfl)
  obtain ⟨stop, after, hstop, hserve⟩ := hended.stopped
  refine ⟨stop, after, hstop, fun patience hpatience => ?_⟩
  have hprolonged := Monitor.prolonged_serve (α := Empty) monitor hpatience
  refine (hprolonged.handle_eq fun t hstalled => ?_).trans hserve
  rw [hserve] at hstalled
  cases hstalled
  rcases hstop with ⟨hexhausted, -⟩ | hhalted
  · cases hexhausted
  · cases hhalted

/-- Detection is for the chip, and leaves everything else alone. -/
theorem exists_ready (chip : Chip) :
    ∃ ready, Config.detect.handle Chip.bus chip = .ok chip.config ready ∧
      ∀ terminal, detected { chip, terminal } = { chip := ready, terminal } := by
  have hdetect := handle_detect { chip }
  rw [handle_bus, onChip_apply] at hdetect
  dsimp only at hdetect
  cases hready : Config.detect.handle Chip.bus chip with
  | error stop ready =>
    rw [hready] at hdetect
    cases hdetect
  | ok config ready =>
    rw [hready] at hdetect
    injection hdetect with hconfig
    subst hconfig
    refine ⟨ready, rfl, fun terminal => ?_⟩
    rw [detected, handle_bus, onChip_apply, hready]
    rfl

/-- Behind a buffered output the program serves as it does in the open, and nothing is left in the
buffer. -/
theorem serve_buffered {options : Options} (huart : options.uart = false) {patience : Nat}
    (station : Station) {after : Station} {stop : Stop} (hstop : stop ≠ .stalled)
    (hserve : (Monitor.serve ⟨station.chip.config, build, patience⟩ : Program Console Empty).handle
      (console station.chip.config.layout atKeyboard) (detected station) = .error stop after)
    (passes : Bytes → Nat) :
    options.serve patience Buffered.onStation (Buffered.terminal passes) { station } =
      .error stop { station := after } := by
  have hdetect : Config.detect.handle (fun request => Buffered.onStation (bus request))
      ({ station } : Buffered) = .ok station.chip.config { station := detected station } := by
    rw [Buffered.handle_onStation, Buffered.onStation_apply, handle_detect]
  rw [Options.serve, run_bind_ok hdetect]
  simp only [Options.channel, huart]
  generalize detected station = ready at hserve
  have hflushes : Flushes true
      (Monitor.serve ⟨station.chip.config, build, patience⟩ : Program Console Empty) := .serve _
  -- Nothing is held back when serving begins, so both runs start from the same station.
  have hnone : ({ station := ready } : Buffered).held = [] := rfl
  have hbuffering := Buffered.buffering_handle station.chip.config.layout passes hflushes
    fun _ => hnone
  have hwhole : Buffered.whole { station := ready } = ready := Buffered.whole_of_held_nil hnone
  rw [hwhole, hserve] at hbuffering
  exact hbuffering.stopped hstop

/-- **Without the UART, the program is the monitor with a script.** -/
theorem run_scripted (options : Options) (files : Files) {input rest image : Bytes}
    {offset : UInt32} (huart : options.uart = false)
    (hloads : Loads options files input offset image rest) :
    let chip := Chip.loadCode {} offset image
    let script := rest.map fun b => if b = 0x0a then 0x0d else b
    ∃ config ready, Config.detect.handle Chip.bus chip = .ok config ready ∧
      ∃ stop after,
        (∀ patience > rest.length,
          (Monitor.serve ⟨config, ⟨"0.1.0", "unknown"⟩, patience⟩ : Program Console Empty).handle
            (console config.layout direct) { chip := ready, terminal := { typed := script } } =
              .error stop after) ∧
        (stop = .inputExhausted ∧ after.terminal.typed = [] ∧
            (options.run files input).code = 0 ∨
          stop = .halted ∧ (options.run files input).code = 101) ∧
        (options.run files input).output = after.terminal.output ∧
        ∀ patience > rest.length, ∀ passes : Bytes → Nat, ∃ shown : Station,
          options.serve patience Buffered.onStation (Buffered.terminal passes)
              { station := { chip, terminal := { typed := rest } } } =
            .error stop { station := shown } ∧
          shown.terminal.output = after.terminal.output := by
  intro chip script
  have hchip : (options.chipFrom files.read).run.run input = (.ok chip, rest) := hloads.chipFrom
  clear_value chip
  obtain ⟨ready, hready, hdetected⟩ := exists_ready chip
  obtain ⟨stop, after, hstop, hserve⟩ := exists_end chip.config build
    { chip := ready, terminal := { typed := script } } rfl
  have hlength : script.length = rest.length := List.length_map _
  rw [hlength] at hserve
  have hgoing : stop ≠ .stalled := by
    rcases hstop with ⟨rfl, -⟩ | rfl
    · exact nofun
    · exact nofun
  -- At the keyboard the same is shown as for the translated script.
  have hkeyboard : ∀ patience > rest.length, ∃ raw,
      (Monitor.serve ⟨chip.config, build, patience⟩ : Program Console Empty).handle
        (console chip.config.layout atKeyboard)
        (detected { chip, terminal := { typed := rest } }) = .error stop raw ∧
      raw.terminal.output = after.terminal.output := by
    intro patience hpatience
    rw [hdetected]
    exact stopped_atKeyboard (hserve patience hpatience)
  obtain ⟨raw, hraw, houtput⟩ := hkeyboard (rest.length + 1) (Nat.lt_succ_self _)
  -- The program's own run has just enough patience for the input.
  have hrun : options.run files input =
      { code := exitCode stop, output := raw.terminal.output } := by
    obtain ⟨name, path, uart⟩ := options
    obtain rfl : uart = false := huart
    exact run_plain hchip hraw
  refine ⟨chip.config, ready, hready, stop, after, hserve, ?_, ?_, ?_⟩
  · rw [hrun]
    rcases hstop with ⟨rfl, hused⟩ | rfl
    · exact .inl ⟨rfl, hused, rfl⟩
    · exact .inr ⟨rfl, rfl⟩
  · rw [hrun]
    exact houtput
  · intro patience hpatience passes
    obtain ⟨shown, hshown, hsame⟩ := hkeyboard patience hpatience
    have hbuffered := serve_buffered huart { chip, terminal := { typed := rest } } hgoing hshown
      passes
    exact ⟨shown, hbuffered, hsame⟩

/-- An image too short to hold a token, and an input that ends in the middle of an escape
sequence. -/
theorem run_scripted_unfinished :
    let options : Options := { image := some "/fw.bin" }
    let image : Bytes := [0x02, 0x40]
    let files : Files := { entries := [(["fw.bin"], .stored image)] }
    let input := Text.utf8 "mrb 3\n" ++ [0x1b, 0x5b]
    options.uart = false ∧ Loads options files input 0 image input ∧
      ∃ config ready, Config.detect.handle Chip.bus (.loadCode {} 0 image) = .ok config ready ∧
        ∃ stop after,
          (Monitor.serve ⟨config, ⟨"0.1.0", "unknown"⟩, 9⟩ : Program Console Empty).handle
              (console config.layout direct)
              { chip := ready, terminal := { typed := Text.utf8 "mrb 3\r" ++ [0x1b, 0x5b] } } =
            .error stop after ∧
          (options.run files input).output = after.terminal.output := by
  intro options image files input
  have hloads : Loads options files input 0 image input := .image rfl rfl
  obtain ⟨config, ready, hready, stop, after, hserve, -, houtput, -⟩ :=
    run_scripted options files rfl hloads
  exact ⟨rfl, hloads, config, ready, hready, stop, after, hserve 9 (by decide), houtput⟩

end DebugMonitor.CommandLine
