import DebugMonitor.Proofs.Memory.UartBlock
import DebugMonitor.Proofs.Station.Step
import Mathlib.Data.List.Forall2

/-!
# A console over the UART

The driver moves every byte over the bus that the monitor inspects, and still the monitor works as
it does at a terminal. `Twin` relates a station whose console goes over the UART to one with the
same chip and a terminal: what the UART has received is what was typed there, what it has sent is
what is shown there, and everything else is the same. Every request keeps stations twins as long as
it stays away from the UART's registers (`mirrors_console`), and so do whole histories
(`history_twin`).

Only waiting for a byte that never comes has two names. The terminal says that its input is
exhausted, and the driver gives up its wait.
-/

namespace DebugMonitor

open Sim

/-- How a stop at the terminal goes by over the UART. -/
def Stop.overUart : Stop → Stop
  | .inputExhausted => .stalled
  | stop => stop

namespace Sim

/-- The queues of a UART that stands in for a terminal. -/
def Terminal.queues (terminal : Terminal) (base : UInt32) (lineControl : UInt8) : UartQueues :=
  { base, received := terminal.typed, sent := terminal.shown, lineControl }

/-- The station on the left has its console over the UART, and the one on the right at the
terminal, with a UART that lies idle. -/
structure Station.Twin (base : UInt32) (lineControl : UInt8) (wired typed : Station) : Prop where
  idle : typed.chip.uart = some { base, lineControl }
  chip_eq : wired.chip =
    typed.chip.rewired (typed.terminal.queues base lineControl) wired.chip.pageSwitches
  editor_eq : wired.editor = typed.editor

namespace Station

variable {layout : Layout} {base : UInt32} {lineControl : UInt8} {wired typed : Station}

theorem Twin.uart_eq (h : Twin base lineControl wired typed) :
    wired.chip.uart = some (typed.terminal.queues base lineControl) := by
  rw [h.chip_eq]
  rfl

theorem Twin.rewired (h : Twin base lineControl wired typed) (hfits : layout.Fits typed.chip) :
    Chip.Rewired layout (typed.terminal.queues base lineControl) { base, lineControl } wired.chip
      typed.chip :=
  ⟨hfits, h.idle, h.chip_eq⟩

/-- Where the driver has put other queues into the UART, the terminal has to follow. -/
theorem Twin.withTerminal (h : Twin base lineControl wired typed) (terminal : Terminal)
    (switches : Nat) :
    Twin base lineControl
      (wired.withChip (wired.chip.rewired (terminal.queues base lineControl) switches))
      (typed.withTerminal terminal) where
  idle := h.idle
  chip_eq := by
    show wired.chip.rewired _ switches = typed.chip.rewired _ switches
    rw [h.chip_eq]
    rfl
  editor_eq := h.editor_eq

theorem uart_apply {patience : Nat} (request : Serial.Request) (station : Station) :
    uart layout base patience request station =
      onChip ((Uart.channel base patience request).handle (Chip.memory layout)) station := by
  show (layout.lower _).handle bus station = _
  rw [handle_bus, Chip.handle_lower]

/-- Twins at which the window, if it cannot move, lies on the first page. -/
def TwinFits (layout : Layout) (base : UInt32) (lineControl : UInt8) (wired typed : Station) :
    Prop :=
  layout.Fits typed.chip ∧ Twin base lineControl wired typed

/-- One request of the channel, over the UART and at the terminal. -/
theorem mirrors_serial (hshows : layout.Shows base) (patience : Nat) (request : Serial.Request)
    (h : TwinFits layout base lineControl wired typed) :
    Mirrors Stop.overUart (TwinFits layout base lineControl)
      (uart layout base (patience + 1) request wired) (direct request typed) := by
  obtain ⟨hfits, htwin⟩ := h
  have huart := htwin.uart_eq
  have hwired : layout.Fits wired.chip := by
    rw [htwin.chip_eq]
    exact hfits.of_page rfl
  rw [uart_apply, onChip_apply]
  show Mirrors _ _ _ (onTerminal (Terminal.serial request) typed)
  rw [onTerminal_apply]
  -- The queue of the UART is the terminal, so the driver finds there what the terminal has.
  cases request with
  | receive =>
    cases htyped : typed.terminal.typed with
    | nil =>
      -- An empty queue is waited for in vain, where the terminal says at once that it is empty.
      obtain ⟨switches, hwait⟩ : ∃ switches,
          (Uart.channel base (patience + 1) .receive).handle (Chip.memory layout) wired.chip =
            .error .stalled
              (wired.chip.rewired (typed.terminal.queues base lineControl) switches) :=
        Chip.handle_receive_nil hwired hshows huart htyped (patience + 1)
      rw [hwait, Terminal.serial_receive_nil htyped]
      exact .error rfl ⟨hfits, htwin.withTerminal _ switches⟩
    | cons byte rest =>
      obtain ⟨switches, hreceive⟩ : ∃ switches,
          (Uart.channel base (patience + 1) .receive).handle (Chip.memory layout) wired.chip =
            .ok byte (wired.chip.rewired
              (Terminal.queues { typed.terminal with typed := rest } base lineControl) switches) :=
        Chip.handle_receive hwired hshows huart htyped patience
      rw [hreceive, Terminal.serial_receive htyped]
      exact .ok ⟨hfits, htwin.withTerminal _ switches⟩
  | send byte =>
    obtain ⟨switches, hsend⟩ : ∃ switches,
        (Uart.channel base (patience + 1) (.send byte)).handle (Chip.memory layout) wired.chip =
          .ok () (wired.chip.rewired (Terminal.queues
            { typed.terminal with shown := byte :: typed.terminal.shown } base lineControl)
            switches) :=
      Chip.handle_send hwired hshows huart byte patience
    rw [hsend]
    exact .ok ⟨hfits, htwin.withTerminal _ switches⟩
  | flush =>
    obtain ⟨switches, hflush⟩ : ∃ switches,
        (Uart.channel base (patience + 1) .flush).handle (Chip.memory layout) wired.chip =
          .ok () (wired.chip.rewired (typed.terminal.queues base lineControl) switches) :=
      Chip.handle_flush hwired hshows huart patience
    rw [hflush]
    exact .ok ⟨hfits, htwin.withTerminal
      { typed.terminal with flushes := typed.terminal.flushes + 1 } switches⟩

/-- The requests of a console, those for the memory outside the UART's registers. -/
def Apart (base : UInt32) (request : Console.Request) : Prop :=
  ∀ access ∈ request.memory?, Uart.Outside base access.address

/-- One request of the console, over the UART and at the terminal. -/
theorem mirrors_console (hshows : layout.Shows base) (patience : Nat) (request : Console.Request)
    (hapart : Apart base request) (wired typed : Station)
    (h : TwinFits layout base lineControl wired typed) :
    Mirrors Stop.overUart (TwinFits layout base lineControl)
      (console layout (uart layout base (patience + 1)) request wired)
      (console layout direct request typed) := by
  obtain ⟨hfits, htwin⟩ := h
  cases request with
  | memory request =>
    have houtside : Uart.Outside base request.address := hapart request rfl
    obtain ⟨answer, after, hafter⟩ := Chip.memory_answers layout request typed.chip
    have hbase : ({ base, lineControl } : UartQueues).base =
        (typed.terminal.queues base lineControl).base := rfl
    have hinStep := Chip.inStep_memory_rewired hshows hbase houtside
    obtain ⟨reached, hreached, hrewired⟩ := hinStep.returns (htwin.rewired hfits) hafter
    rw [console_memory, console_memory, onChip_apply, onChip_apply, hreached, hafter]
    exact .ok ⟨hrewired.fits, hrewired.uart_eq, hrewired.left_eq, htwin.editor_eq⟩
  | serial request => exact mirrors_serial hshows patience request ⟨hfits, htwin⟩
  | editor =>
    show Mirrors _ _ (.ok wired.editor wired) (.ok typed.editor typed)
    rw [htwin.editor_eq]
    exact .ok ⟨hfits, htwin⟩
  | setEditor editor => exact .ok ⟨hfits, htwin.idle, htwin.chip_eq, rfl⟩
  | halt => exact .error rfl ⟨hfits, htwin⟩

end Station

/-! ### Histories -/

/-- What work there is to do does not depend on where the console's channel leads. -/
theorem Work.program_channel (task : Work) (equipment : Equipment) (channel : Bench.Rig.Channel)
    (session : Bulk.Session) :
    task.program { equipment with channel } session = task.program equipment session := by
  cases task <;> rfl

/-- Twins at which the same bulk session is held. -/
structure Site.Twin (layout : Layout) (base : UInt32) (lineControl : UInt8) (wired typed : Site) :
    Prop where
  station : Station.TwinFits layout base lineControl wired.station typed.station
  session_eq : wired.session = typed.session

/-- An entry over the UART and the one at the terminal for the same step. -/
structure Entry.Twin (base : UInt32) (lineControl : UInt8) (wired typed : Entry) : Prop where
  step_eq : wired.step = typed.step
  outcome_eq : wired.outcome = typed.outcome.mapError Stop.overUart
  station : Station.Twin base lineControl wired.after.station typed.after.station
  session_eq : wired.after.session = typed.after.session

namespace Equipment

variable {base : UInt32} {lineControl : UInt8} {wired typed : Site}

/-- The monitor with its console over the UART, whose driver looks at least once. -/
def overUart (monitor : Monitor) (base : UInt32) (patience : Nat) : Equipment :=
  ⟨monitor, .uart base, patience + 1⟩

def atTerminal (monitor : Monitor) (patience : Nat) : Equipment :=
  ⟨monitor, .terminal, patience + 1⟩

variable (monitor : Monitor) (patience : Nat)

theorem mirrors_work (hshows : monitor.config.layout.Shows base) (task : Work)
    (h : Site.Twin monitor.config.layout base lineControl wired typed)
    (hclear : ∀ request ∈ task.accesses (atTerminal monitor patience) typed,
      Uart.Outside base request.address) :
    Mirrors Stop.overUart (Station.TwinFits monitor.config.layout base lineControl)
      ((overUart monitor base patience).run wired (.work task))
      ((atTerminal monitor patience).run typed (.work task)) := by
  have hprogram : task.program (overUart monitor base patience) typed.session =
      task.program (atTerminal monitor patience) typed.session :=
    task.program_channel (atTerminal monitor patience) (.uart base) typed.session
  rw [run, run, h.session_eq, hprogram]
  refine Program.mirrors_handle rfl (Station.mirrors_console hshows patience) _ h.station ?_
  intro request hrequest access haccess
  exact hclear access (List.mem_filterMap.mpr ⟨request, hrequest, haccess⟩)

theorem perform_twin (hshows : monitor.config.layout.Shows base) (task : Work)
    (h : Site.Twin monitor.config.layout base lineControl wired typed)
    (hclear : ∀ request ∈ task.accesses (atTerminal monitor patience) typed,
      Uart.Outside base request.address) :
    ((overUart monitor base patience).perform wired (.work task)).1 =
        ((atTerminal monitor patience).perform typed (.work task)).1.mapError Stop.overUart ∧
      Site.Twin monitor.config.layout base lineControl
        ((overUart monitor base patience).perform wired (.work task)).2
        ((atTerminal monitor patience).perform typed (.work task)).2 := by
  have hmirrors := mirrors_work monitor patience hshows task h hclear
  rw [perform, perform]
  generalize (overUart monitor base patience).run _ _ = ended at hmirrors
  generalize (atTerminal monitor patience).run _ _ = finished at hmirrors
  cases hmirrors with
  | ok hstation => exact ⟨rfl, hstation, rfl⟩
  | error hname hstation => exact ⟨congrArg Except.error hname, hstation, h.session_eq⟩

/-- All steps, one by one. -/
theorem history_twin (hshows : monitor.config.layout.Shows base) (tasks : List Work)
    (h : Site.Twin monitor.config.layout base lineControl wired typed)
    (hclear : ∀ entry ∈ (atTerminal monitor patience).history typed (tasks.map .work),
      ∀ request ∈ entry.step.accesses (atTerminal monitor patience) entry.before,
        Uart.Outside base request.address) :
    List.Forall₂ (Entry.Twin base lineControl)
      ((overUart monitor base patience).history wired (tasks.map .work))
      ((atTerminal monitor patience).history typed (tasks.map .work)) := by
  induction tasks generalizing wired typed with
  | nil => exact .nil
  | cons task rest ih =>
    rw [List.map_cons, history_cons, List.forall_mem_cons] at hclear
    obtain ⟨hfirst, hrest⟩ := hclear
    obtain ⟨houtcome, hafter⟩ := perform_twin monitor patience hshows task h hfirst
    rw [List.map_cons, history_cons, history_cons]
    exact .cons ⟨rfl, houtcome, hafter.station.2, hafter.session_eq⟩ (ih hafter hrest)

/-- **A console over the UART does what it does at a terminal.** The same chip, with a UART at
`base`, is used twice: once with the input in the UART's receive queue, and once with the queues
empty and the input typed at the terminal. As long as the work, polls above all, accesses no
register of the UART, every step ends alike and leaves twins behind: what was sent and what is still
unread are the same, and so are the data, the registers, the page and the editor. -/
theorem history_overUart (chip : Chip) (lineControl : UInt8) (editor : LineEditor)
    (session : Bulk.Session) (input : Bytes)
    (hcode : monitor.config.layout.codeStart ≤ 0x1000000)
    (hshows : monitor.config.layout.Shows base)
    (hpage : monitor.config.layout.paging = .unified → chip.page = 0) (tasks : List Work)
    (hclear : ∀ entry ∈ (atTerminal monitor patience).history
        ⟨{ chip := { chip with uart := some { base, lineControl } }
           terminal := { typed := input }
           editor }, session⟩ (tasks.map .work),
      ∀ request ∈ entry.step.accesses (atTerminal monitor patience) entry.before,
        Uart.Outside base request.address) :
    List.Forall₂ (Entry.Twin base lineControl)
      ((overUart monitor base patience).history
        ⟨{ chip := { chip with uart := some { base, received := input, lineControl } }
           editor }, session⟩ (tasks.map .work))
      ((atTerminal monitor patience).history
        ⟨{ chip := { chip with uart := some { base, lineControl } }
           terminal := { typed := input }
           editor }, session⟩ (tasks.map .work)) :=
  history_twin monitor patience hshows tasks ⟨⟨⟨hcode, hpage⟩, rfl, rfl, rfl⟩, rfl⟩ hclear

/-- A word at the end of the data is read over a UART whose own registers lie behind the gate. -/
theorem history_overUart_gated :
    let config : Config :=
      { variant := .unknown
        layout := { Layout.banked with gate := some ⟨0x5000, 0x6000, 0x87, 1⟩ } }
    let monitor : Monitor := ⟨config, ⟨[], []⟩, 0⟩
    let chip : Chip := { page := 3, uart := some { base := 0x5100 } }
    let input : Bytes := Text.utf8 "mrw 3ffffe\r"
    let polls : List Work := .replicate 12 .poll
    let typed : Site := ⟨{ chip, terminal := { typed := input } }, .start config.layout⟩
    let wired : Site :=
      ⟨{ chip := { chip with uart := some { base := 0x5100, received := input } } },
        .start config.layout⟩
    List.Forall₂ (Entry.Twin 0x5100 0)
      ((overUart monitor 0x5100 0).history wired (polls.map .work))
      ((atTerminal monitor 0).history typed (polls.map .work)) := by
  intro config monitor chip input polls typed wired
  refine history_overUart monitor 0 chip 0 {} _ input ?_ ?_ ?_ polls ?_
  · decide
  · exact ⟨by decide, by decide⟩
  · exact fun h => by cases h
  · decide +kernel

end Equipment

end Sim

end DebugMonitor
