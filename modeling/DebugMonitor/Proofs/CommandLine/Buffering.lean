import DebugMonitor.Proofs.CommandLine.Flushing
import DebugMonitor.Proofs.CommandLine.Keyboard

/-!
# A buffered output

Standard output need not pass a byte on as soon as it is written. It may hold bytes back, to pass
them on line by line or many at a time, and only a flush makes sure that none is left. The program
flushes before it reads, and where the monitor asks for it; when a run is over, what is still held
back is as good as lost.

`Buffered` is a station whose terminal is behind such an output, with any policy of passing on. It
stands for the station that has been shown everything (`Buffered.whole`), and every request keeps to
that (`buffering_console`). In the end nothing is held back: when the input ends, because the output
was flushed for the last read, and when the chip halts, because the monitor has flushed before
(`buffering_handle`).
-/

namespace DebugMonitor.CommandLine

open Sim Sim.Station

variable {α : Type}

/-- A station, and what was written to its output but not passed on yet. -/
structure Buffered where
  station : Station
  held : Bytes := []

namespace Buffered

/-- The station that has been shown everything. -/
def whole (buffered : Buffered) : Station := buffered.station.display buffered.held

def drained (buffered : Buffered) : Buffered := { station := buffered.whole }

/-- One more byte is written, and the first so many that are held are passed on. -/
def written (passes : Bytes → Nat) (byte : UInt8) (buffered : Buffered) : Buffered :=
  let held := buffered.held ++ [byte]
  ⟨buffered.station.display (held.take (passes held)), held.drop (passes held)⟩

theorem whole_written (passes : Bytes → Nat) (byte : UInt8) (buffered : Buffered) :
    (buffered.written passes byte).whole = buffered.whole.display [byte] := by
  rw [whole, written, display_display, List.take_append_drop, whole, display_display]

theorem whole_of_held_nil {buffered : Buffered} (h : buffered.held = []) :
    buffered.whole = buffered.station := by
  rw [whole, h]
  rfl

/-- Runs on the station, beside what is held back. -/
def onStation (run : EStateM Stop Station α) : EStateM Stop Buffered α :=
  zoom (fun ⟨station, held⟩ => (station, (⟨·, held⟩))) run

/-- The terminal behind the output. The policy says how many of the bytes held are passed on. -/
def terminal (passes : Bytes → Nat) : Handler Serial (EStateM Stop Buffered)
  | .receive => do
    modify drained
    onStation (direct .receive)
  | .send byte => modify (written passes byte)
  | .flush => do
    modify drained
    onStation (direct .flush)

theorem onStation_apply (run : EStateM Stop Station α) (buffered : Buffered) :
    onStation run buffered = match run buffered.station with
      | .ok a station => .ok a ⟨station, buffered.held⟩
      | .error stop station => .error stop ⟨station, buffered.held⟩ := by
  cases hrun : run buffered.station <;> simp [onStation, zoom, hrun]

theorem onStation_bind {β : Type} (run : EStateM Stop Station α)
    (next : α → EStateM Stop Station β) :
    onStation (run >>= next) = (onStation run >>= fun a => onStation (next a)) := by
  funext buffered
  show onStation (EStateM.bind run next) buffered = EStateM.bind (onStation run) _ buffered
  rw [onStation_apply, EStateM.bind, EStateM.bind, onStation_apply]
  cases run buffered.station with
  | ok a station => exact (onStation_apply (next a) ⟨station, buffered.held⟩).symm
  | error stop station => rfl

/-- What only the station answers is run on the station. -/
theorem handle_onStation {I : Interface} (h : Handler I (EStateM Stop Station)) (p : Program I α) :
    p.handle (fun request => onStation (h request)) = onStation (p.handle h) := by
  induction p with
  | done a => rfl
  | stalled => rfl
  | call request next ih =>
    show (onStation (h request) >>= fun answer => (next answer).handle _) = _
    simp only [ih]
    exact (onStation_bind _ _).symm

/-- The console of a run whose output is buffered. -/
def console (layout : Layout) (passes : Bytes → Nat) : Handler Console (EStateM Stop Buffered) :=
  Console.handler layout (fun request => onStation (bus request)) (keyboard (terminal passes))
    (onStation (Station.editor <$> get)) fun editor => onStation (modify ({ · with editor }))

end Buffered

/-! ### One request -/

/-- How two runs compare: they end alike, the one with everything held back or shown that the other
has shown; and unless a wait was given up, nothing is held back that `held` does not allow for. -/
inductive Buffering (held : Bool) :
    EStateM.Result Stop Buffered α → EStateM.Result Stop Station α → Prop
  | ok {a : α} {buffered : Buffered} : (held = false → buffered.held = []) →
    Buffering held (.ok a buffered) (.ok a buffered.whole)
  | error {stop : Stop} {buffered : Buffered} : (stop ≠ .stalled → buffered.held = []) →
    Buffering held (.error stop buffered) (.error stop buffered.whole)

namespace Buffered

variable {layout : Layout} {held : Bool} {passes : Bytes → Nat} {buffered : Buffered}

/-- Behind a flush nothing is held back. -/
theorem buffering_drain (run : EStateM Stop Station α) (buffered : Buffered) :
    Buffering false ((modify drained >>= fun _ => onStation run) buffered)
      (run buffered.whole) := by
  have hrun : (modify drained >>= fun _ => onStation run) buffered = _ :=
    onStation_apply run buffered.drained
  have hstation : buffered.drained.station = buffered.whole := rfl
  rw [hrun, hstation]
  cases run buffered.whole with
  | ok a station =>
    show Buffering _ (.ok a { station }) (.ok a (whole { station }))
    exact .ok fun _ => rfl
  | error stop station =>
    show Buffering _ (.error stop { station }) (.error stop (whole { station }))
    exact .error fun _ => rfl

/-- Before a byte is received, all that was written is shown. -/
theorem buffering_receive (passes : Bytes → Nat) (buffered : Buffered) :
    Buffering false (keyboard (terminal passes) .receive buffered)
      (atKeyboard .receive buffered.whole) := by
  have hdrain : Buffering false (terminal passes .receive buffered)
      (direct .receive buffered.whole) := buffering_drain (direct .receive) buffered
  show Buffering _ (EStateM.map enterKey (terminal passes .receive) buffered)
    (EStateM.map enterKey (direct .receive) buffered.whole)
  rw [EStateM.map, EStateM.map]
  generalize terminal passes .receive buffered = ended at hdrain
  generalize direct .receive buffered.whole = finished at hdrain
  cases hdrain with
  | ok hafter => exact .ok hafter
  | error hafter => exact .error hafter

variable (layout passes) in
/-- One request of the console, with its output held back and in the open. -/
theorem buffering_console (request : Console.Request) (hhalt : request = .halt → held = false)
    (hheld : held = false → buffered.held = []) :
    Buffering (request.holds held) (console layout passes request buffered)
      (Station.console layout atKeyboard request buffered.whole) := by
  cases request with
  | memory request =>
    obtain ⟨answer, chip, hanswer⟩ := Chip.memory_answers layout request buffered.station.chip
    -- The chip is the same whether its bytes are held back or not.
    have hwhole : Chip.memory layout request buffered.whole.chip = .ok answer chip := hanswer
    have hmemory : console layout passes (.memory request) =
        onStation (onChip (Chip.memory layout request)) :=
      (handle_onStation bus _).trans (congrArg onStation (handle_bus _))
    rw [console_memory, hmemory, onChip_apply, onStation_apply, onChip_apply, hanswer, hwhole]
    show Buffering _ _ (.ok answer (whole ⟨buffered.station.withChip chip, buffered.held⟩))
    exact .ok hheld
  | serial request =>
    cases request with
    | receive => exact buffering_receive passes buffered
    | send byte =>
      show Buffering _ (.ok () (buffered.written passes byte))
        (.ok () (buffered.whole.display [byte]))
      rw [← whole_written passes]
      exact .ok nofun
    | flush => exact buffering_drain (direct .flush) buffered
  | editor => exact .ok hheld
  | setEditor editor =>
    show Buffering _ _ (.ok () (whole ⟨buffered.station.withEditor editor, buffered.held⟩))
    exact .ok hheld
  -- What is still held back at a halt is lost, so nothing may be.
  | halt => exact .error fun _ => hheld (hhalt rfl)

/-! ### Runs -/

variable (layout passes) in
/-- **Nothing is held back in the end.** -/
theorem buffering_handle {p : Program Console α} (hflushes : Flushes held p)
    (hheld : held = false → buffered.held = []) :
    Buffering true (p.handle (console layout passes) buffered)
      (p.handle (Station.console layout atKeyboard) buffered.whole) := by
  induction p generalizing held buffered with
  | done a => exact .ok nofun
  | stalled => exact .error (absurd rfl)
  | call request next ih =>
    have hended := buffering_console layout passes request hflushes.1 hheld
    rw [Program.handle_call, Program.handle_call]
    generalize console layout passes request buffered = ended at hended
    generalize Station.console layout atKeyboard request buffered.whole = finished at hended
    cases hended with
    | ok hafter => exact ih _ (hflushes.2 _) hafter
    | error hafter => exact .error hafter

end Buffered

/-- A stop that is no stall finds nothing held back. -/
theorem Buffering.stopped {result : EStateM.Result Stop Buffered α} {held : Bool} {stop : Stop}
    {after : Station} (h : Buffering held result (.error stop after)) (hstop : stop ≠ .stalled) :
    result = .error stop { station := after } := by
  cases h with
  | @error _ buffered hheld =>
    have hnone := hheld hstop
    rw [Buffered.whole_of_held_nil hnone, ← hnone]

end DebugMonitor.CommandLine
