import DebugMonitor.CommandLine
import DebugMonitor.Proofs.Station.Turns
import DebugMonitor.Proofs.Trace

/-!
# Enter at the keyboard

Terminals send a line feed for Enter, and the keyboard turns every line feed into a carriage return,
wherever it comes in the input. So a console at the keyboard is a console at a terminal at which
other bytes are typed (`handle_atKeyboard`): the same requests are made, and they end alike.
-/

namespace DebugMonitor

open Sim

/-- In step, a program asks for the same in both worlds. -/
theorem Program.trace_eq_of_inStep {I : Interface} {α σ τ : Type} {R : σ → τ → Prop}
    {h : Handler I (EStateM Stop σ)} {k : Handler I (EStateM Stop τ)}
    (hstep : ∀ request, InStep R (h request) (k request)) (p : Program I α) {s : σ} {t : τ}
    (hst : R s t) : p.trace h s = p.trace k t := by
  induction p generalizing s t with
  | done a => rfl
  | stalled => rfl
  | call request next ih =>
    have hended := hstep request hst
    rw [trace, trace]
    generalize h request s = ended at hended
    generalize k request t = finished at hended
    cases hended with
    | ok hnext => exact congrArg (request :: ·) (ih _ hnext)
    | error hstopped => rfl

namespace CommandLine

open Sim.Station

variable {α : Type} {layout : Layout} {station : Station}

/-- Only a line feed is turned into something else. -/
theorem enterKey_eq_self_iff (b : UInt8) : enterKey b = b ↔ b ≠ Text.lineFeed := by
  rw [enterKey]
  split
  · next hb =>
    subst hb
    exact iff_of_false (by decide) fun hne => hne rfl
  · next hb => exact iff_of_true rfl hb

/-- Input is taken as it is if, and only if, it has no line feed. -/
theorem map_enterKey_eq_self_iff (bytes : Bytes) :
    bytes.map enterKey = bytes ↔ Text.lineFeed ∉ bytes := by
  have hid : bytes.map enterKey = bytes.map id ↔ ∀ b ∈ bytes, enterKey b = id b := List.map_inj_left
  rw [List.map_id] at hid
  rw [hid]
  constructor
  · exact fun hsame hmem => (enterKey_eq_self_iff _).mp (hsame _ hmem) rfl
  · exact fun hnone b hb => (enterKey_eq_self_iff b).mpr fun heq => hnone (heq ▸ hb)

/-- The console's channel to the keyboard and the screen. -/
def atKeyboard : Handler Serial (EStateM Stop Station) := keyboard direct

/-- A byte from the keyboard is the next one typed, with Enter understood. -/
theorem atKeyboard_receive {byte : UInt8} {rest : Bytes}
    (h : station.terminal.typed = byte :: rest) :
    atKeyboard .receive station = .ok (enterKey byte) (station.withTyped rest) := by
  have hreceive : direct .receive station = .ok byte (station.withTyped rest) := by
    show onTerminal (Terminal.serial .receive) station = _
    rw [onTerminal_apply, Terminal.serial_receive h]
    rfl
  exact run_bind_ok hreceive

theorem atKeyboard_receive_nil (h : station.terminal.typed = []) :
    atKeyboard .receive station = .error .inputExhausted station := by
  have hreceive : direct .receive station = .error .inputExhausted station := by
    show onTerminal (Terminal.serial .receive) station = _
    rw [onTerminal_apply, Terminal.serial_receive_nil h]
    rfl
  exact run_bind_error hreceive

/-- The station at whose terminal is typed what the keyboard would make of the input. -/
def cooked (station : Station) : Station :=
  station.withTyped (station.terminal.typed.map enterKey)

/-- A request at the keyboard is the same request at a terminal on which the translated input is
typed. -/
theorem inStep_atKeyboard (request : Console.Request) :
    InStep (fun raw typed => typed = cooked raw) (console layout atKeyboard request)
      (console layout direct request) := by
  rintro raw _ rfl
  cases request with
  | memory request =>
    obtain ⟨answer, chip, hanswer⟩ := Chip.memory_answers layout request raw.chip
    have hcooked : Chip.memory layout request (cooked raw).chip = .ok answer chip := hanswer
    rw [console_memory, console_memory, onChip_apply, onChip_apply, hanswer, hcooked]
    exact .ok rfl
  | serial request =>
    cases request with
    -- This is the only request that sees what was typed.
    | receive =>
      show Alike _ (atKeyboard .receive raw) (onTerminal (Terminal.serial .receive) (cooked raw))
      rw [onTerminal_apply]
      cases htyped : raw.terminal.typed with
      | nil =>
        have hcooked : (cooked raw).terminal.typed = [] := congrArg (List.map enterKey) htyped
        rw [atKeyboard_receive_nil htyped, Terminal.serial_receive_nil hcooked]
        exact .error rfl
      | cons byte rest =>
        have hcooked : (cooked raw).terminal.typed = enterKey byte :: rest.map enterKey :=
          congrArg (List.map enterKey) htyped
        rw [atKeyboard_receive htyped, Terminal.serial_receive hcooked]
        exact .ok rfl
    | send byte => exact .ok rfl
    | flush => exact .ok rfl
  | editor => exact .ok rfl
  | setEditor editor => exact .ok rfl
  | halt => exact .error rfl

variable (layout) in
/-- **At the keyboard it is as if Enter had been a carriage return all along.** -/
theorem handle_atKeyboard (p : Program Console α) (station : Station) :
    Alike (fun raw typed => typed = cooked raw) (p.handle (console layout atKeyboard) station)
      (p.handle (console layout direct) (cooked station)) :=
  InStep.handle inStep_atKeyboard p rfl

/-- What stops a run stops it at the keyboard too, and the same was shown. -/
theorem stopped_atKeyboard {p : Program Console α} {typed : Station} {stop : Stop}
    (h : p.handle (console layout direct) (cooked station) = .error stop typed) :
    ∃ raw, p.handle (console layout atKeyboard) station = .error stop raw ∧
      raw.terminal.output = typed.terminal.output := by
  have halike := handle_atKeyboard layout p station
  rw [h] at halike
  generalize p.handle (console layout atKeyboard) station = ended at halike
  cases halike with
  | error hcooked => exact ⟨_, rfl, congrArg (·.terminal.output) hcooked.symm⟩

/-- The same requests are made, whichever way the input is translated. -/
theorem trace_atKeyboard (p : Program Console α) (station : Station) :
    p.trace (console layout atKeyboard) station =
      p.trace (console layout direct) (cooked station) :=
  Program.trace_eq_of_inStep inStep_atKeyboard p rfl

end CommandLine

end DebugMonitor
