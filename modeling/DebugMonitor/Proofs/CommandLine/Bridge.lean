import DebugMonitor.Proofs.CommandLine.Flushing
import DebugMonitor.Proofs.CommandLine.Keyboard
import DebugMonitor.Proofs.Memory.Covered
import DebugMonitor.Proofs.Station.UartConsole

/-!
# A terminal wired to the UART

Where the console goes through the UART, the bytes it sends wait in the transmit queue until they
are shown. `Bridged` relates such a station to one with the keyboard and the screen right at the
console: what is shown there is what is shown here, and then what waits. Every request keeps it up
(`bridging_console`). The queue is emptied whenever the monitor receives or flushes, so nothing is
left in it when the input ends, and nothing when the chip halts, because the monitor has flushed by
then (`bridging_handle`).
-/

namespace DebugMonitor.CommandLine

open Sim Sim.Station

variable {α : Type}

/-! ### The two channels -/

/-- The console's channel to the UART, with keyboard and screen at its other end. -/
def overBridge (layout : Layout) (base : UInt32) (patience : Nat) :
    Handler Serial (EStateM Stop Station) :=
  bridge (fun run => run) atKeyboard (uart layout base patience)

theorem atKeyboard_sendAll (bytes : Bytes) (station : Station) :
    (bytes.forM fun byte => atKeyboard (.send byte)) station =
      .ok ⟨⟩ (station.display bytes) := by
  induction bytes generalizing station with
  | nil => rfl
  | cons byte rest ih =>
    have hsend : atKeyboard (.send byte) station = .ok () (station.display [byte]) := rfl
    show (atKeyboard (.send byte) >>= fun _ => rest.forM fun byte => atKeyboard (.send byte))
      station = _
    rw [run_bind_ok hsend, ih, display_display]
    rfl

/-! ### Stations -/

/-- The station on the left has its console at the UART, where these bytes wait to be shown, the
newest first. The one on the right has no UART. -/
structure Bridged (layout : Layout) (base : UInt32) (sent : Bytes) (wired bare : Station) :
    Prop where
  chip : Chip.Covered layout base sent wired.chip bare.chip
  shown_eq : bare.terminal.shown = sent ++ wired.terminal.shown
  typed_eq : wired.terminal.typed = bare.terminal.typed
  editor_eq : wired.editor = bare.editor

variable {layout : Layout} {base : UInt32} {sent : Bytes} {held : Bool} {wired bare : Station}

/-- Where nothing waits, the same is shown. -/
theorem Bridged.output_eq (h : Bridged layout base [] wired bare) :
    wired.terminal.output = bare.terminal.output := by
  rw [Terminal.output, Terminal.output, h.shown_eq]
  rfl

/-- Only the chips of the two stations differ. -/
theorem Bridged.withChip (h : Bridged layout base sent wired bare) {chip other : Chip}
    (hchip : Chip.Covered layout base sent chip other) :
    Bridged layout base sent (wired.withChip chip) (bare.withChip other) :=
  ⟨hchip, h.shown_eq, h.typed_eq, h.editor_eq⟩

/-- How two runs compare: they end alike, and unless the driver has given up a wait, nothing is left
unshown that `held` does not allow for. -/
inductive Bridging (layout : Layout) (base : UInt32) (held : Bool) :
    EStateM.Result Stop Station α → EStateM.Result Stop Station α → Prop
  | ok {a : α} {sent : Bytes} {wired bare : Station} : Bridged layout base sent wired bare →
    (held = false → sent = []) → Bridging layout base held (.ok a wired) (.ok a bare)
  | error {stop : Stop} {sent : Bytes} {wired bare : Station} :
    Bridged layout base sent wired bare → (stop ≠ .stalled → sent = []) →
    Bridging layout base held (.error stop wired) (.error stop bare)

/-- Where a run stops at the keyboard, it stops over the bridge, and the same was shown. -/
theorem Bridging.stopped {result : EStateM.Result Stop Station α} {stop : Stop}
    (hstop : stop ≠ .stalled) (h : Bridging layout base held result (.error stop bare)) :
    ∃ wired, result = .error stop wired ∧ wired.terminal.output = bare.terminal.output := by
  cases h with
  | @error _ sent wired _ hbridged hsent =>
    obtain rfl := hsent hstop
    exact ⟨wired, rfl, hbridged.output_eq⟩

/-! ### Forwarding -/

/-- The station after its transmit queue was shown. -/
def shownAll (base : UInt32) (sent : Bytes) (lineControl : UInt8) (wired : Station) : Station :=
  (wired.withChip (wired.chip.rewired { base, lineControl } wired.chip.pageSwitches)).display
    sent.reverse

/-- Forwarding takes what the chip has sent and shows it. -/
theorem handle_forward {lineControl : UInt8}
    (huart : wired.chip.uart = some { base, sent, lineControl }) :
    forward (fun run => run) atKeyboard wired = .ok () (shownAll base sent lineControl wired) := by
  have htaken : (modifyGet Chip.takeUart : EStateM Stop Chip Bytes) wired.chip =
      .ok sent.reverse (wired.chip.rewired { base, lineControl } wired.chip.pageSwitches) := by
    show EStateM.Result.ok wired.chip.takeUart.1 wired.chip.takeUart.2 = _
    rw [Chip.takeUart, huart]
    rfl
  have htake : onChip (modifyGet Chip.takeUart) wired =
      .ok sent.reverse
        (wired.withChip (wired.chip.rewired { base, lineControl } wired.chip.pageSwitches)) := by
    rw [onChip_apply, htaken]
  rw [forward, run_bind_ok htake]
  exact atKeyboard_sendAll _ _

/-- When all is shown, the bridge owes nothing. -/
theorem Bridged.shownAll (h : Bridged layout base sent wired bare) (lineControl : UInt8) :
    Bridged layout base [] (shownAll base sent lineControl wired) bare where
  chip := h.chip.rewired [] lineControl _
  shown_eq := by
    rw [h.shown_eq]
    show sent ++ wired.terminal.shown = [] ++ (sent.reverse.reverse ++ wired.terminal.shown)
    rw [List.reverse_reverse, List.nil_append]
  typed_eq := h.typed_eq
  editor_eq := h.editor_eq

/-! ### One request -/

variable (patience : Nat)

/-- A byte comes from the keyboard through the receive queue, which is empty before and after. -/
theorem bridging_receive (hshows : layout.Shows base) (h : Bridged layout base sent wired bare) :
    Bridging layout base false (overBridge layout base (patience + 1) .receive wired)
      (atKeyboard .receive bare) := by
  obtain ⟨lineControl, huart⟩ := h.chip.uart_eq
  -- First everything that was sent is shown, so nothing is owed to the other side.
  have hforward := handle_forward huart
  have hnone := h.shownAll lineControl
  generalize shownAll base sent lineControl wired = forwarded at hforward hnone
  obtain ⟨lineControl, hempty⟩ := hnone.chip.uart_eq
  have hpending : onChip (Chip.uartPending <$> get) forwarded = .ok 0 forwarded := by
    rw [onChip_apply]
    show EStateM.Result.ok forwarded.chip.uartPending forwarded = _
    rw [Chip.uartPending, hempty]
    rfl
  rw [overBridge, bridge, run_bind_ok hforward, run_bind_ok hpending]
  cases htyped : bare.terminal.typed with
  | nil =>
    rw [atKeyboard_receive_nil htyped]
    have hexhausted := atKeyboard_receive_nil (hnone.typed_eq.trans htyped)
    rw [if_pos rfl, run_bind_error hexhausted]
    exact .error hnone fun _ => rfl
  | cons byte rest =>
    rw [atKeyboard_receive htyped]
    have hreceive := atKeyboard_receive (hnone.typed_eq.trans htyped)
    -- The byte goes through the receive queue, and the driver finds it there at once.
    let received : UartQueues := { base, received := [enterKey byte], lineControl }
    let pushed := (forwarded.withTyped rest).withChip
      (forwarded.chip.rewired received forwarded.chip.pageSwitches)
    have hpush : onChip (modify (·.pushUart [enterKey byte])) (forwarded.withTyped rest) =
        .ok () pushed := by
      rw [onChip_apply]
      show EStateM.Result.ok () ((forwarded.withTyped rest).withChip
        (forwarded.chip.pushUart [enterKey byte])) = _
      rw [Chip.pushUart, hempty]
      rfl
    have hfits : layout.Fits pushed.chip := hnone.chip.wired_fits.of_page rfl
    have hsame : layout.Shows received.base := hshows
    have huart : pushed.chip.uart = some received := rfl
    have hreceived : received.received = [enterKey byte] := rfl
    obtain ⟨switches, hdriver⟩ : ∃ switches,
        (Uart.channel base (patience + 1) .receive).handle (Chip.memory layout) pushed.chip =
          .ok (enterKey byte) (pushed.chip.rewired { base, lineControl } switches) :=
      Chip.handle_receive hfits hsame huart hreceived patience
    have htaken : uart layout base (patience + 1) .receive pushed = .ok (enterKey byte)
        (pushed.withChip (pushed.chip.rewired { base, lineControl } switches)) := by
      rw [uart_apply, onChip_apply, hdriver]
    -- The queue is empty again, so the stations are as they were before the byte.
    have hafter : Bridged layout base []
        (pushed.withChip (pushed.chip.rewired { base, lineControl } switches))
        (bare.withTyped rest) :=
      ⟨hnone.chip.rewired [] lineControl switches, hnone.shown_eq, rfl, hnone.editor_eq⟩
    rw [if_pos rfl, run_bind_ok hreceive, run_bind_ok hpush]
    show Bridging _ _ _ (uart layout base (patience + 1) .receive pushed) _
    rw [htaken]
    exact .ok hafter fun _ => rfl

/-- A byte that is sent waits in the transmit queue. -/
theorem bridging_send (hshows : layout.Shows base) (h : Bridged layout base sent wired bare)
    (byte : UInt8) :
    Bridging layout base true (overBridge layout base (patience + 1) (.send byte) wired)
      (atKeyboard (.send byte) bare) := by
  obtain ⟨lineControl, huart⟩ := h.chip.uart_eq
  have hsame : layout.Shows ({ base, sent, lineControl } : UartQueues).base := hshows
  obtain ⟨switches, hdriver⟩ : ∃ switches,
      (Uart.channel base (patience + 1) (.send byte)).handle (Chip.memory layout) wired.chip =
        .ok () (wired.chip.rewired { base, sent := byte :: sent, lineControl } switches) :=
    Chip.handle_send h.chip.wired_fits hsame huart byte patience
  show Bridging _ _ _ (uart layout base (patience + 1) (.send byte) wired)
    (.ok () (bare.display [byte]))
  rw [uart_apply, onChip_apply, hdriver]
  refine .ok ⟨h.chip.rewired _ lineControl switches, ?_, h.typed_eq, h.editor_eq⟩ nofun
  exact congrArg (byte :: ·) h.shown_eq

/-- When the transmit queue has drained, what was in it is shown. -/
theorem bridging_flush (hshows : layout.Shows base) (h : Bridged layout base sent wired bare) :
    Bridging layout base false (overBridge layout base (patience + 1) .flush wired)
      (atKeyboard .flush bare) := by
  obtain ⟨lineControl, huart⟩ := h.chip.uart_eq
  have hsame : layout.Shows ({ base, sent, lineControl } : UartQueues).base := hshows
  obtain ⟨switches, hdriver⟩ : ∃ switches,
      (Uart.channel base (patience + 1) .flush).handle (Chip.memory layout) wired.chip =
        .ok () (wired.chip.rewired { base, sent, lineControl } switches) :=
    Chip.handle_flush h.chip.wired_fits hsame huart patience
  -- The driver only waits for the line; nothing it reads is taken from the queues.
  let drained := wired.withChip (wired.chip.rewired { base, sent, lineControl } switches)
  have hdrain : uart layout base (patience + 1) .flush wired = .ok () drained := by
    rw [uart_apply, onChip_apply, hdriver]
  have hdrained : Bridged layout base sent drained bare :=
    ⟨h.chip.rewired sent lineControl switches, h.shown_eq, h.typed_eq, h.editor_eq⟩
  have hforward : forward (fun run => run) atKeyboard drained = _ := handle_forward rfl
  have hnone := hdrained.shownAll lineControl
  rw [overBridge, bridge, run_bind_ok hdrain, run_bind_ok hforward]
  exact .ok ⟨hnone.chip, hnone.shown_eq, hnone.typed_eq, hnone.editor_eq⟩ fun _ => rfl

/-- One request of the console, over the bridge and without it. -/
theorem bridging_console (hshows : layout.Shows base) (request : Console.Request)
    (hspares : ∀ access ∈ request.memory?, Uart.Spares base access)
    (hhalt : request = .halt → held = false) (h : Bridged layout base sent wired bare)
    (hheld : held = false → sent = []) :
    Bridging layout base (request.holds held)
      (console layout (overBridge layout base (patience + 1)) request wired)
      (console layout atKeyboard request bare) := by
  cases request with
  | memory request =>
    -- Accesses spare the registers of the block, so both chips answer alike.
    rw [console_memory, console_memory, onChip_apply, onChip_apply]
    obtain ⟨answer, after, hafter⟩ := Chip.memory_answers layout request bare.chip
    obtain ⟨reached, hreached, hcovered⟩ :=
      (Chip.inStep_memory_covered hshows request (hspares _ rfl)).returns h.chip hafter
    rw [hreached, hafter]
    exact .ok (h.withChip hcovered) hheld
  | serial request =>
    cases request with
    | receive => exact bridging_receive patience hshows h
    | send byte => exact bridging_send patience hshows h byte
    | flush => exact bridging_flush patience hshows h
  | editor =>
    show Bridging _ _ _ (.ok wired.editor wired) (.ok bare.editor bare)
    rw [h.editor_eq]
    exact .ok h hheld
  | setEditor editor => exact .ok ⟨h.chip, h.shown_eq, h.typed_eq, rfl⟩ hheld
  | halt => exact .error h fun _ => hheld (hhalt rfl)

/-! ### Runs -/

/-- **Nothing gets lost on the bridge.** A program that flushes before it halts the chip does the
same over the bridge as at the keyboard, as long as it spares the registers of the UART. -/
theorem bridging_handle (hshows : layout.Shows base) {p : Program Console α}
    (hflushes : Flushes held p) (h : Bridged layout base sent wired bare)
    (hheld : held = false → sent = [])
    (hspares : ∀ request ∈ p.trace (console layout atKeyboard) bare,
      ∀ access ∈ request.memory?, Uart.Spares base access) :
    Bridging layout base true
      (p.handle (console layout (overBridge layout base (patience + 1))) wired)
      (p.handle (console layout atKeyboard) bare) := by
  induction p generalizing held sent wired bare with
  | done a => exact .ok h nofun
  | stalled => exact .error h (absurd rfl)
  | call request next ih =>
    rw [Program.trace, List.forall_mem_cons] at hspares
    obtain ⟨hfirst, hrest⟩ := hspares
    have hended := bridging_console patience hshows request hfirst hflushes.1 h hheld
    rw [Program.handle_call, Program.handle_call]
    -- Both runs go on from whatever their first request came to.
    generalize console layout (overBridge layout base (patience + 1)) request wired = ended
      at hended
    generalize console layout atKeyboard request bare = finished at hended hrest
    cases hended with
    | ok hafter hsent => exact ih _ (hflushes.2 _) hafter hsent hrest
    | error hafter hsent => exact .error hafter hsent

end DebugMonitor.CommandLine
