import DebugMonitor.Proofs.Console.OnBus
import DebugMonitor.Proofs.Console.Refusal
import DebugMonitor.Proofs.Station.Agreement
import DebugMonitor.Proofs.Station.Touching

/-!
# Lines that fail

A line that fails has changed nothing. It reports its failure once, and what it has done before is
to show a value, if that, with the accesses of one read (`execute_error`). So no call has stored
anything, and a register has been written only by a bracket around a reading cycle, whatever the bus
answers. On a simulated chip there is nothing to see of the line afterwards, unless the read took a
byte out of the UART.
-/

namespace DebugMonitor

open Sim

/-! ### Reading a value -/

theorem Memory.Inside.width {region : UInt32 → Prop} {width : Width} {address : UInt32}
    (h : ∀ i < width.size, region (address + i.toUInt32)) :
    Inside region (width.read address) := by
  cases width with
  | byte => exact .bind (.ask (add_zero_offset address ▸ h 0 Nat.one_pos)) fun _ => .pure _
  | word => exact .bind (readBytes h) fun _ => .pure _

theorem Memory.ReadsInside.width {region : UInt32 → Prop} {width : Width} {address : UInt32}
    (h : ∀ i < width.size, region (address + i.toUInt32)) :
    ReadsInside region (width.read address) :=
  (Reads.width width address).and (Inside.width h)

/-- The bus cycles of reads do not store. -/
theorem Layout.lower_within_looks (layout : Layout) {α : Type} {p : Program Memory α}
    (hp : Memory.Reads p) : (layout.lower p).Within (Bus.Looks layout) := by
  apply hp.handle
  intro request hread
  cases request with
  | read address => exact layout.read_within address
  | write address value => exact hread.elim

namespace Monitor

/-! ### What is sent -/

theorem sends_say (text : Text) : Console.Sends (Console.say text) (pure ((), text.wire)) :=
  .sendAll text.wire

/-- A failure is told in the lines of its report. -/
theorem sends_tell_error (failure : Failure) :
    Console.Sends (tell (.error failure)) (pure (.error failure, failure.report.wire)) := by
  rw [tell_error]
  simpa using (sends_say failure.report).bind fun _ =>
    Console.Sends.pure (Except.error failure : Except Failure Unit)

/-- Beside the desk there is nothing but the read. -/
theorem sends_showValue_tell (width : Width) (address : UInt32) (failure : Failure) :
    Console.Sends (showValue width address >>= fun _ => tell (.error failure))
      (width.read address >>= fun value =>
        pure (.error failure, (valueLine width address value ++ failure.report).wire)) := by
  have hshow := (Console.Sends.memory (width.read address)).bind fun value =>
    sends_say (valueLine width address value)
  have h := hshow.bind fun _ => sends_tell_error failure
  simpa [showValue] using h

/-! ### Lines -/

variable {σ : Type} {layout : Layout} {bus : Handler Bus (EStateM Stop σ)} {desk after : Desk}
  {s t : σ} {monitor : Monitor} {line : Text} {failure : Failure}

/-- A line that succeeds whenever it returns does not fail. -/
theorem not_error_of_succeeds {p : Program Console Unit}
    (hp : monitor.execute line = p >>= fun _ => pure (.ok ())) :
    (monitor.execute line).handle (Desk.console layout bus) desk s ≠
      .ok (.error failure, after) t := by
  rw [hp, Desk.handle_bind]
  cases hrun : p.handle (Desk.console layout bus) desk s with
  | ok entry next =>
    rw [run_bind_ok hrun]
    intro h
    cases h
  | error stop next =>
    rw [run_bind_error hrun]
    exact nofun

/-- The line is refused before anything else is done. -/
theorem calls_of_refused {refusal : Failure} (hrefused : Refused (Console.tokens line) refusal)
    (h : (monitor.execute line).handle (Desk.console layout bus) desk s =
      .ok (.error failure, after) t) :
    failure = refusal ∧ Console.calls layout bus desk (monitor.execute line) s = [] ∧ t = s ∧
      after = desk.display failure.report.wire := by
  have hsends : Console.Sends (monitor.execute line)
      (pure (.error refusal, refusal.report.wire)) := by
    rw [execute_refused hrefused]
    exact sends_tell_error refusal
  have hrun := congrFun (hsends (EStateM Stop σ) layout bus desk) s
  rw [hrun] at h
  cases h
  exact ⟨rfl, Console.calls_of_sends bus hsends s, rfl, rfl⟩

/-- Where a line is refused for its value, the read is all that happens on the bus. -/
theorem handle_of_refusedValue {width : Width} {address : UInt32}
    (hrefused : RefusedValue (Console.tokens line) width address failure) (s : σ) :
    (monitor.execute line).handle (Desk.console layout bus) desk s =
        ((layout.lower (width.read address)).handle bus >>= fun value =>
          pure (.error failure,
            desk.display (valueLine width address value ++ failure.report).wire)) s ∧
      Console.calls layout bus desk (monitor.execute line) s =
        (layout.lower (width.read address)).trace bus s := by
  have hsends : Console.Sends (monitor.execute line)
      (width.read address >>= fun value =>
        pure (.error failure, (valueLine width address value ++ failure.report).wire)) := by
    rw [execute_refusedValue hrefused]
    exact sends_showValue_tell width address failure
  have hrun := congrFun (hsends (EStateM Stop σ) layout bus desk) s
  have hcalls : Console.calls layout bus desk (monitor.execute line) s = _ :=
    Console.calls_of_sends bus hsends s
  rw [Layout.lower_bind] at hcalls hrun
  rw [Program.handle_bind, bind_assoc] at hrun
  exact ⟨hrun, hcalls.trans (Program.trace_bind_pure _ _ s)⟩

/-- A line that is refused for its value has made the calls of one read. -/
theorem calls_of_refusedValue {width : Width} {address : UInt32} {refusal : Failure}
    (hrefused : RefusedValue (Console.tokens line) width address refusal)
    (h : (monitor.execute line).handle (Desk.console layout bus) desk s =
      .ok (.error failure, after) t) :
    failure = refusal ∧
      Console.calls layout bus desk (monitor.execute line) s =
        (layout.lower (width.read address)).trace bus s ∧
      ∃ value, (layout.lower (width.read address)).handle bus s = .ok value t ∧
        after = desk.display (valueLine width address value ++ failure.report).wire := by
  obtain ⟨hrun, hcalls⟩ := handle_of_refusedValue hrefused s
  rw [hrun] at h
  cases hread : (layout.lower (width.read address)).handle bus s with
  | ok value next =>
    rw [run_bind_ok hread] at h
    cases h
    exact ⟨rfl, hcalls, value, rfl, rfl⟩
  | error stop next =>
    rw [run_bind_error hread] at h
    cases h

/-! ### On a simulated chip -/

/-- What a read leaves behind, if it takes nothing. -/
theorem recounted_or_receives {width : Width} {address value : UInt32} {chip next : Chip}
    (h : (layout.lower (width.read address)).handle Chip.bus chip = .ok value next) :
    Chip.Recounted next chip ∨
      ∃ i < width.size, Chip.Receives layout chip (address + i.toUInt32) := by
  by_cases hreceives : ∃ i < width.size, Chip.Receives layout chip (address + i.toUInt32)
  · exact .inr hreceives
  · left
    have hinside : Memory.ReadsInside (fun byte => ¬ Chip.Receives layout chip byte)
        (width.read address) := .width fun i hi hbyte => hreceives ⟨i, hi, hbyte⟩
    obtain ⟨found, after, hruns, hafter⟩ := hinside.runs fun _ hbyte => hbyte
    rw [← Chip.handle_lower, h] at hruns
    cases hruns
    exact hafter

/-- **A line that fails has changed nothing, and tells its failure once.** Whatever the bus answers,
it has stored nothing and written no register but for the brackets around reading cycles. A line
that is refused for its command, for missing arguments or for its address has made no call at all.
One that is refused for its value has made those of one read, and shown what is there. So a
simulated chip is as it was but for the count of page switches, unless the read took a byte out of
the UART. -/
theorem execute_error (monitor : Monitor) (line : Text) (desk : Desk) :
    let layout := monitor.config.layout
    let sent (text : Text) : Bytes :=
      text.utf8.flatMap fun b => if b = 0x0a then [0x0d, 0x0a] else [b]
    (∀ (σ : Type) (bus : Handler Bus (EStateM Stop σ)) (s t : σ) (failure : Failure) (after : Desk),
      (monitor.execute line).handle (Desk.console layout bus) desk s =
          .ok (.error failure, after) t →
        let calls := Console.calls layout bus desk (monitor.execute line) s
        let usage : Text := match failure with
          | .tooFewArguments command => command.usage ++ "\n"
          | _ => []
        let report : Text := "Error: " ++ failure.message ++ "\n" ++ usage
        (∀ call ∈ calls, Bus.Looks layout call) ∧
          ((Refused (Console.tokens line) failure ∧ calls = [] ∧ t = s ∧
              after = desk.display (sent report)) ∨
            ∃ width address value, RefusedValue (Console.tokens line) width address failure ∧
              calls = (layout.lower (width.read address)).trace bus s ∧
              (layout.lower (width.read address)).handle bus s = .ok value t ∧
              after = desk.display (sent (valueLine width address value ++ report)))) ∧
      ∀ (chip next : Chip) (failure : Failure) (after : Desk),
        (monitor.execute line).handle (Desk.console layout Chip.bus) desk chip =
            .ok (.error failure, after) next →
          Chip.Recounted next chip ∨
            ∃ width address i, RefusedValue (Console.tokens line) width address failure ∧
              i < width.size ∧ Chip.Receives layout chip (address + i.toUInt32) := by
  intro layout sent
  constructor
  · intro σ bus s t failure after h calls usage report
    -- Each line is refused before it did anything, or at its value, or it succeeds.
    rcases refused_or_succeeds monitor line with ⟨refusal, hrefused⟩ |
      ⟨width, address, refusal, hrefused⟩ | ⟨p, hp⟩
    · obtain ⟨rfl, hcalls, hstate, hafter⟩ := calls_of_refused hrefused h
      refine ⟨?_, .inl ⟨hrefused, hcalls, hstate, hafter⟩⟩
      intro call hcall
      rw [show calls = [] from hcalls] at hcall
      cases hcall
    · obtain ⟨rfl, hcalls, value, hread, hafter⟩ := calls_of_refusedValue hrefused h
      refine ⟨?_, .inr ⟨width, address, value, hrefused, hcalls, hread, hafter⟩⟩
      intro call hcall
      rw [show calls = _ from hcalls] at hcall
      -- The calls are those of a read.
      have hlooks := layout.lower_within_looks (.width width address)
      exact Program.forall_mem_trace hlooks s call hcall
    · exact absurd h (not_error_of_succeeds hp)
  · intro chip next failure after h
    rcases refused_or_succeeds monitor line with ⟨refusal, hrefused⟩ |
      ⟨width, address, refusal, hrefused⟩ | ⟨p, hp⟩
    · obtain ⟨-, -, rfl, -⟩ := calls_of_refused hrefused h
      exact .inl (.refl _)
    · obtain ⟨rfl, -, value, hread, -⟩ := calls_of_refusedValue hrefused h
      rcases recounted_or_receives hread with hrecounted | ⟨i, hi, hreceives⟩
      · exact .inl hrecounted
      · exact .inr ⟨width, address, i, hrefused, hi, hreceives⟩
    · exact absurd h (not_error_of_succeeds hp)

/-- A byte too large for its place, on a blank chip. -/
theorem execute_error_large :
    let monitor : Monitor := ⟨.ofVariant .asm3242, ⟨[], []⟩, 0⟩
    let layout := monitor.config.layout
    let line : Text := "mwb 200000 100"
    ∃ (after : Desk) (next : Chip),
      (monitor.execute line).handle (Desk.console layout Chip.bus) {} {} =
          .ok (.error .valueTooLarge, after) next ∧
        (∀ call ∈ Console.calls layout Chip.bus {} (monitor.execute line) {},
          Bus.Looks layout call) ∧
        Chip.Recounted next {} := by
  intro monitor layout line
  have htokens : Console.tokens line = [(Command.write .byte).name, "200000", "100"] := by
    decide +kernel
  have hvalue : Numeral.parse "100" = .ok 0x100 := by decide
  have hrefused : RefusedValue (Console.tokens line) .byte 0x200000 .valueTooLarge :=
    .value htokens (by decide) (by decide) (.tooLarge hvalue rfl (by decide))
  -- The read that comes before the refusal goes through.
  have huart : ({} : Chip).uart = none := rfl
  obtain ⟨value, next, hread, -⟩ :=
    (Memory.Reads.width .byte 0x200000).runs layout huart
  rw [← Chip.handle_lower] at hread
  obtain ⟨after, hrun⟩ : ∃ after,
      (monitor.execute line).handle (Desk.console layout Chip.bus) {} {} =
        .ok (.error .valueTooLarge, after) next := by
    rw [(handle_of_refusedValue hrefused _).1, run_bind_ok hread]
    exact ⟨_, rfl⟩
  obtain ⟨hcalls, hchip⟩ := execute_error monitor line {}
  refine ⟨after, next, hrun, (hcalls Chip Chip.bus _ _ _ _ hrun).1, ?_⟩
  rcases hchip _ _ _ _ hrun with hrecounted | ⟨width, address, i, -, -, hreceives⟩
  · exact hrecounted
  · exact absurd hreceives (Chip.not_receives_of_no_uart rfl _)

end Monitor

end DebugMonitor
