import DebugMonitor.Proofs.Console.Desk
import DebugMonitor.Proofs.Console.Execution
import DebugMonitor.Proofs.Station.Wiring
import DebugMonitor.Proofs.Trace

/-!
# What becomes of the input

At a terminal the monitor gets its input byte by byte, and it takes a byte only when it asks for
one. Most of what it does is quiet: it accesses the memory and sends, and then it has returned with
the input and the editor as they were (`Quiet.returns`). All commands but two are quiet, and so is
whatever a bulk session does about a byte.
-/

namespace DebugMonitor

open Sim

variable {α β : Type}

/-! ### Quiet programs -/

/-- Requests that take no input, and are always answered. -/
def Console.Request.Quiet : Console.Request → Prop
  | .memory _ | .serial (.send _) | .serial .flush => True
  | .serial .receive | .editor | .setEditor _ | .halt => False

/-- A console program that takes no input, leaves the editor alone and returns. -/
abbrev Quiet (p : Program Console α) : Prop := p.Within Console.Request.Quiet

/-- What only looks is quiet. -/
theorem Looking.quiet {p : Program Console α} (hp : Looking p) : Quiet p := by
  refine Program.Within.mono ?_ hp
  intro request hlooks
  cases request with
  | memory request => trivial
  | serial request =>
    cases request with
    | receive => exact hlooks
    | send b => trivial
    | flush => trivial
  | editor => exact hlooks
  | setEditor editor => exact hlooks
  | halt => exact hlooks

/-- No access of a reset waits. -/
theorem Monitor.resetRequests_within (monitor : Monitor) (toRom : Bool) :
    (monitor.resetRequests toRom).Within fun _ => True := by
  unfold resetRequests
  cases monitor.config.controlBase with
  | none => exact .pure ()
  | some base =>
    have hexecution : (Memory.read (base + executionRegister) >>= fun execution =>
        Memory.write (base + executionRegister) (execution ||| resetBit)).Within fun _ => True :=
      .bind (.ask trivial) fun _ => .ask trivial
    cases toRom with
    | true => exact .bind (.ask trivial) fun _ => .bind (.ask trivial) fun _ => hexecution
    | false => exact hexecution

namespace Quiet

theorem memory {p : Program Memory α} (hp : p.Within fun _ => True) : Quiet (Console.memory p) :=
  Program.Within.memory (fun _ _ => trivial) hp

theorem sendAll (bytes : Bytes) : Quiet (Console.sendAll bytes) := (Looking.sendAll bytes).quiet

theorem say (text : Text) : Quiet (Console.say text) := sendAll text.wire

theorem read (address : UInt32) : Quiet (Console.memory (Memory.read address)) :=
  (Looking.memory (.read address)).quiet

theorem write (address : UInt32) (value : UInt8) :
    Quiet (Console.memory (Memory.write address value)) :=
  memory (.ask trivial)

theorem readWord (address : UInt32) : Quiet (Console.memory (Memory.readWord address)) :=
  (Looking.memory (.readWord address)).quiet

theorem writeWord (address value : UInt32) :
    Quiet (Console.memory (Memory.writeWord address value)) :=
  memory (Memory.writeBytes_within address _)

/-! ### Bulk sessions -/

section Bulk

open Bulk Bulk.Session

theorem sendWord (address : UInt32) : Quiet (sendWord address) :=
  .bind (readWord address) fun _ => sendAll _

theorem sendWords (address : UInt32) (count : Nat) : Quiet (sendWords address count) := by
  induction count generalizing address with
  | zero => trivial
  | succ count ih => exact .bind (sendWord address) fun _ => ih _

theorem sendBytes (address : UInt32) (count : Nat) : Quiet (sendBytes address count) := by
  induction count generalizing address with
  | zero => trivial
  | succ count ih =>
    exact .bind (read address) fun _ => .bind (.ask trivial) fun _ => ih _

/-- A session asks for no byte but the one it is fed. -/
theorem next (byWords : Bool) (byte : UInt8) (state : Bulk.State) :
    Quiet (Session.next byWords byte state) := by
  -- In every state the byte is the one that was fed, and serving asks for no other.
  cases state with
  | idle =>
    rw [Session.next]
    split <;> trivial
  | address transfer field =>
    rw [Session.next]
    split
    · trivial
    · match transfer with
      | .word .read => exact .bind (sendWord _) fun _ => .pure _
      | .word .write => trivial
      | .block direction => trivial
  | value address field =>
    rw [Session.next]
    split
    · trivial
    · exact .bind (writeWord _ _) fun _ => .pure _
  | length direction address field =>
    rw [Session.next]
    split
    · trivial
    · cases direction with
      | read => exact .bind (.bind (sendWords _ _) fun _ => sendBytes _ _) fun _ => .pure _
      | write => trivial
  | data address remaining => exact .bind (write _ _) fun _ => .pure _

end Bulk

/-! ### Commands -/

section Commands

theorem changeValue (width : Width) (address value : UInt32) :
    Quiet (Monitor.changeValue width address value) := by
  cases width with
  | byte => exact write address _
  | word => exact writeWord address value

theorem showing (width : Width) (address value : UInt32) :
    Quiet (Monitor.showing width address value) := by
  have hshow : Quiet (Monitor.showValue width address) := (Looking.showValue width address).quiet
  exact .bind hshow fun _ => .bind (changeValue width address value) fun _ =>
    .bind hshow fun _ => .pure _

end Commands

end Quiet

/-! ### On a station -/

namespace Sim.Station

variable {layout : Layout} {station : Station}

def withTyped (station : Station) (typed : Bytes) : Station :=
  station.withTerminal { station.terminal with typed }

theorem handle_receive {b : UInt8} {rest : Bytes} (h : station.terminal.typed = b :: rest) :
    Console.receive.handle (console layout direct) station = .ok b (station.withTyped rest) := by
  rw [Console.receive, Console.ask, Program.handle_ask]
  show onTerminal (Terminal.serial .receive) station = _
  rw [onTerminal_apply, Terminal.serial_receive h]
  rfl

theorem handle_receive_nil (h : station.terminal.typed = []) :
    Console.receive.handle (console layout direct) station = .error .inputExhausted station := by
  rw [Console.receive, Console.ask, Program.handle_ask]
  show onTerminal (Terminal.serial .receive) station = _
  rw [onTerminal_apply, Terminal.serial_receive_nil h]
  rfl

/-- No input was taken, and the editor is as it was. -/
structure Unmoved (before after : Station) : Prop where
  typed_eq : after.terminal.typed = before.terminal.typed
  editor_eq : after.editor = before.editor

theorem Unmoved.trans {before middle after : Station} (h : Unmoved before middle)
    (h' : Unmoved middle after) : Unmoved before after :=
  ⟨h'.typed_eq.trans h.typed_eq, h'.editor_eq.trans h.editor_eq⟩

/-- A quiet request is answered, and takes no input. -/
theorem console_quiet {request : Console.Request} (h : request.Quiet) (station : Station) :
    ∃ answer after, console layout direct request station = .ok answer after ∧
      Unmoved station after := by
  cases request with
  | memory request =>
    obtain ⟨answer, chip, hanswer⟩ := Chip.memory_answers layout request station.chip
    rw [console_memory, onChip_apply, hanswer]
    exact ⟨answer, _, rfl, rfl, rfl⟩
  | serial request =>
    cases request with
    | receive => exact h.elim
    | send byte => exact ⟨(), _, rfl, rfl, rfl⟩
    | flush => exact ⟨(), _, rfl, rfl, rfl⟩
  | editor => exact h.elim
  | setEditor editor => exact h.elim
  | halt => exact h.elim

end Sim.Station

/-- A quiet program returns, and takes no input. -/
theorem Quiet.returns {p : Program Console α} (hp : Quiet p) (layout : Layout) (station : Station) :
    ∃ a after, p.handle (Station.console layout Station.direct) station = .ok a after ∧
      Station.Unmoved station after := by
  induction p generalizing station with
  | done a => exact ⟨a, station, rfl, rfl, rfl⟩
  | stalled => exact hp.elim
  | call request next ih =>
    obtain ⟨answer, middle, hanswer, hmiddle⟩ := Station.console_quiet hp.1 station
    obtain ⟨a, after, hafter, hrest⟩ := ih answer (hp.2 answer) middle
    refine ⟨a, after, ?_, hmiddle.trans hrest⟩
    rw [Program.handle_call, hanswer]
    exact hafter

/-! ### A station as a desk beside its chip

What holds at any desk holds at a station. The chip is the bus, and the rest of the station the
desk. -/

namespace Sim.Station

variable {layout : Layout}

def desk (station : Station) : Desk := ⟨station.terminal, station.editor⟩

theorem console_desk {request : Console.Request} {station after : Station} {answer : request.Answer}
    (h : console layout direct request station = .ok answer after) :
    Desk.console layout Chip.bus request station.desk station.chip =
      .ok (answer, after.desk) after.chip := by
  cases request with
  | memory request =>
    obtain ⟨found, chip, hmemory⟩ := Chip.memory_answers layout request station.chip
    rw [console_memory, onChip_apply, hmemory] at h
    cases h
    show (layout.access request).handle (fun cycle => StateT.lift (Chip.bus cycle)) station.desk
      station.chip = _
    rw [Desk.handle_lift]
    show EStateM.bind _ _ station.chip = _
    rw [EStateM.bind, show (layout.access request).handle Chip.bus station.chip = _ from hmemory]
    rfl
  -- A request that is answered leaves the same terminal on both sides.
  | serial request =>
    have hserial : onTerminal (Terminal.serial request) station = .ok answer after := h
    rw [onTerminal_apply] at hserial
    show (Desk.serial request : StateT Desk (EStateM Stop Chip) _) station.desk station.chip = _
    cases hterminal : Terminal.serial request station.terminal with
    | ok found terminal =>
      rw [hterminal] at hserial
      cases hserial
      simp only [Desk.serial, desk, hterminal]
      rfl
    | error stop terminal =>
      rw [hterminal] at hserial
      cases hserial
  | editor =>
    cases h
    rfl
  | setEditor editor =>
    cases h
    rfl
  | halt => exact answer.elim

/-- A run on the station is a run on its desk and its chip. -/
theorem handle_desk {p : Program Console α} {station after : Station} {a : α}
    (h : p.handle (console layout direct) station = .ok a after) :
    p.handle (Desk.console layout Chip.bus) station.desk station.chip =
      .ok (a, after.desk) after.chip := by
  induction p generalizing station with
  | done result =>
    cases h
    rfl
  | stalled => cases h
  | call request next ih =>
    rw [Program.handle_call] at h
    cases hrequest : console layout direct request station with
    | ok answer middle =>
      rw [hrequest] at h
      show EStateM.bind (Desk.console layout Chip.bus request station.desk) _ station.chip = _
      rw [EStateM.bind, console_desk hrequest]
      exact ih answer h
    | error stop middle =>
      rw [hrequest] at h
      cases h

/-- A program whose result is known returns that result. -/
theorem eq_of_sends {p : Program Console α} {effect : Program Memory Bytes} {a found : α}
    (hsends : Console.Sends p (effect >>= fun s => pure (a, s))) {station after : Station}
    (h : p.handle (console layout direct) station = .ok found after) : found = a := by
  have hdesk := handle_desk h
  rw [hsends, Layout.lower_bind, Program.handle_bind, bind_assoc] at hdesk
  change EStateM.bind _ _ station.chip = _ at hdesk
  rw [EStateM.bind] at hdesk
  cases heffect : (layout.lower effect).handle Chip.bus station.chip with
  | ok s chip =>
    rw [heffect] at hdesk
    injection hdesk with hentry
    exact (congrArg Prod.fst hentry).symm
  | error stop chip =>
    rw [heffect] at hdesk
    cases hdesk

end Sim.Station

end DebugMonitor
