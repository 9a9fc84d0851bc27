import DebugMonitor.Proofs.Memory.PageRegister
import DebugMonitor.Proofs.Station.Step
import Mathlib.Data.List.Forall2

/-!
# Stations side by side

Two stations whose chips differ in something that no access depends on stand side by side, even if
one of them has shown something earlier. From then on both do the same (`history_beside`): every
step has the same outcome, takes the same input and shows the same bytes, behind those that were
there before.

What it is that the chips differ in is left open. All that is asked of it is that accesses and
changes from outside keep it up (`Chip.Steady`), and detection too where there is one.
-/

namespace DebugMonitor.Sim

variable {α : Type} {layout : Layout} {R : Chip → Chip → Prop} {earlier : Bytes}

/-! ### Stations -/

/-- The chips are related, and the station on the left has shown something earlier, of which the
newest byte comes first. -/
structure Station.Beside (R : Chip → Chip → Prop) (earlier : Bytes) (used fresh : Station) :
    Prop where
  chip : R used.chip fresh.chip
  terminal_eq : used.terminal =
    { fresh.terminal with shown := fresh.terminal.shown ++ earlier }
  editor_eq : used.editor = fresh.editor

namespace Station

variable {used fresh : Station}

theorem Beside.typed_eq (h : Beside R earlier used fresh) :
    used.terminal.typed = fresh.terminal.typed := by
  rw [h.terminal_eq]

theorem Beside.withChip (h : Beside R earlier used fresh) {chip other : Chip}
    (hchip : R chip other) :
    Beside R earlier (used.withChip chip) (fresh.withChip other) :=
  ⟨hchip, h.terminal_eq, h.editor_eq⟩

/-- A change to the chip that does not look at the page register is the same on both. -/
theorem Beside.changed (hsteady : Chip.Steady layout R) (h : Beside R earlier used fresh)
    (change : Chip → Chip)
    (hchange : ∀ chip page switches,
      change (chip.turned page switches) = (change chip).turned page switches) :
    Beside R earlier (used.withChip (change used.chip)) (fresh.withChip (change fresh.chip)) := by
  have hblind : Chip.Blind fun chip => ((), change chip) :=
    fun chip page switches => congrArg (Prod.mk ()) (hchange chip page switches)
  exact h.withChip (hsteady.act hblind h.chip).2

/-- What keeps two chips in step does so beside different pasts. -/
theorem beside_onChip {run : EStateM Stop Chip α} (hrun : InStep R run run) :
    InStep (Beside R earlier) (onChip run) (onChip run) := by
  intro used fresh h
  have hchips := hrun h.chip
  rw [onChip_apply, onChip_apply]
  generalize run used.chip = ended at hchips
  generalize run fresh.chip = finished at hchips
  cases hchips with
  | ok hchip => exact .ok (h.withChip hchip)
  | error hchip => exact .error (h.withChip hchip)

theorem beside_direct (request : Serial.Request) :
    InStep (Beside R earlier) (direct request) (direct request) := by
  intro used fresh h
  show Alike _ (onTerminal (Terminal.serial request) used)
    (onTerminal (Terminal.serial request) fresh)
  rw [onTerminal_apply, onTerminal_apply]
  cases request with
  | receive =>
    cases htyped : fresh.terminal.typed with
    | nil =>
      rw [Terminal.serial_receive_nil htyped, Terminal.serial_receive_nil (h.typed_eq.trans htyped)]
      exact .error h
    | cons b rest =>
      rw [Terminal.serial_receive htyped, Terminal.serial_receive (h.typed_eq.trans htyped)]
      -- What was shown earlier stays under everything that is shown now.
      refine .ok ⟨h.chip, ?_, h.editor_eq⟩
      show { used.terminal with typed := rest } = _
      rw [h.terminal_eq]
      rfl
  | send b =>
    refine .ok ⟨h.chip, ?_, h.editor_eq⟩
    show { used.terminal with shown := b :: used.terminal.shown } = _
    rw [h.terminal_eq]
    rfl
  | flush =>
    refine .ok ⟨h.chip, ?_, h.editor_eq⟩
    show { used.terminal with flushes := used.terminal.flushes + 1 } = _
    rw [h.terminal_eq]
    rfl

/-- One request of the console, on the used station and on the fresh one. -/
theorem beside_console (hsteady : Chip.Steady layout R) (request : Console.Request) :
    InStep (Beside R earlier) (console layout direct request) (console layout direct request) := by
  cases request with
  | memory request =>
    rw [console_memory]
    exact beside_onChip (hsteady.memory request)
  | serial request => exact beside_direct request
  | editor =>
    intro used fresh h
    show Alike _ (.ok used.editor used) (.ok fresh.editor fresh)
    rw [h.editor_eq]
    exact .ok h
  | setEditor editor =>
    intro used fresh h
    exact .ok ⟨h.chip, h.terminal_eq, rfl⟩
  | halt =>
    intro used fresh h
    exact .error h

/-- A whole program, over either channel. -/
theorem beside_handle (hsteady : Chip.Steady layout R) (patience : Nat)
    (wiring : Bench.Rig.Channel) (p : Program Console α) :
    InStep (Beside R earlier) (p.handle (console layout (channel layout patience wiring)))
      (p.handle (console layout (channel layout patience wiring))) := by
  rw [← handle_over]
  exact InStep.handle (beside_console hsteady) _

end Station

/-! ### Steps -/

structure Site.Beside (R : Chip → Chip → Prop) (earlier : Bytes) (used fresh : Site) : Prop where
  station : Station.Beside R earlier used.station fresh.station
  session_eq : used.session = fresh.session

/-- Two entries for the same step, with the same outcome, which leaves the sites side by side. -/
structure Entry.Beside (R : Chip → Chip → Prop) (earlier : Bytes) (used fresh : Entry) : Prop where
  step_eq : used.step = fresh.step
  outcome_eq : used.outcome = fresh.outcome
  after : Site.Beside R earlier used.after fresh.after

theorem Device.act_beside (hsteady : Chip.Steady layout R) (device : Device)
    {used fresh : Station} (h : Station.Beside R earlier used fresh) :
    (device.act used).1 = (device.act fresh).1 ∧
      Station.Beside R earlier (device.act used).2 (device.act fresh).2 := by
  have hchanged := h.changed hsteady
  cases device with
  | peek address =>
    have hblind : Chip.Blind fun chip => (chip.peek address, chip) := fun _ _ _ => rfl
    exact ⟨congrArg Reply.byte (hsteady.act hblind h.chip).1, h⟩
  | poke address value => exact ⟨rfl, hchanged (Chip.poke · address value) fun _ _ _ => rfl⟩
  | loadCode offset image => exact ⟨rfl, hchanged (Chip.loadCode · offset image) fun _ _ _ => rfl⟩
  | lock band => exact ⟨rfl, hchanged (Chip.lock · band) fun _ _ _ => rfl⟩
  | attachUart base => exact ⟨rfl, hchanged (Chip.attachUart · base) fun _ _ _ => rfl⟩
  | pushUart bytes => exact ⟨rfl, hchanged (Chip.pushUart · bytes) fun _ _ _ => rfl⟩
  | type bytes =>
    refine ⟨rfl, h.chip, ?_, h.editor_eq⟩
    show used.terminal.type bytes = _
    rw [h.terminal_eq]
    rfl

namespace Equipment

variable (equipment : Equipment) {used fresh : Site}

theorem run_beside (hsteady : Chip.Steady equipment.layout R) (step : Step)
    (hdetect : step = .detect →
      InStep R (Config.detect.handle Chip.bus) (Config.detect.handle Chip.bus))
    (h : Site.Beside R earlier used fresh) :
    Alike (Station.Beside R earlier) (equipment.run used step) (equipment.run fresh step) := by
  cases step with
  | work task =>
    rw [run, run, h.session_eq]
    exact Station.beside_handle hsteady equipment.patience equipment.channel _ h.station
  | detect =>
    rw [run, run, h.session_eq, Program.handle_bind, Station.handle_bus]
    exact InStep.bind (Station.beside_onChip (hdetect rfl)) (fun config => InStep.pure _) h.station
  | device device =>
    obtain ⟨hreply, hafter⟩ := device.act_beside hsteady h.station
    show Alike _ (.ok ((device.act used.station).1, used.session) (device.act used.station).2)
      (.ok ((device.act fresh.station).1, fresh.session) (device.act fresh.station).2)
    rw [hreply, h.session_eq]
    exact .ok hafter

/-- One step of the equipment, with the same outcome on both sides. -/
theorem perform_beside (hsteady : Chip.Steady equipment.layout R) (step : Step)
    (hdetect : step = .detect →
      InStep R (Config.detect.handle Chip.bus) (Config.detect.handle Chip.bus))
    (h : Site.Beside R earlier used fresh) :
    (equipment.perform used step).1 = (equipment.perform fresh step).1 ∧
      Site.Beside R earlier (equipment.perform used step).2 (equipment.perform fresh step).2 := by
  have halike := equipment.run_beside hsteady step hdetect h
  rw [perform, perform]
  generalize equipment.run used step = ended at halike
  generalize equipment.run fresh step = finished at halike
  cases halike with
  | ok hstation => exact ⟨rfl, hstation, rfl⟩
  | error hstation => exact ⟨rfl, hstation, h.session_eq⟩

/-- **Stations side by side stay so.** Whatever is done to both, step by step, ends alike. -/
theorem history_beside (hsteady : Chip.Steady equipment.layout R) {steps : List Step}
    (hdetect : .detect ∈ steps →
      InStep R (Config.detect.handle Chip.bus) (Config.detect.handle Chip.bus))
    (h : Site.Beside R earlier used fresh) :
    List.Forall₂ (Entry.Beside R earlier) (equipment.history used steps)
      (equipment.history fresh steps) := by
  induction steps generalizing used fresh with
  | nil => exact .nil
  | cons step rest ih =>
    have hfirst : step = .detect →
        InStep R (Config.detect.handle Chip.bus) (Config.detect.handle Chip.bus) :=
      fun hstep => hdetect (hstep ▸ List.mem_cons_self)
    obtain ⟨houtcome, hafter⟩ := equipment.perform_beside hsteady step hfirst h
    rw [history_cons, history_cons]
    exact .cons ⟨rfl, houtcome, hafter⟩
      (ih (fun hmem => hdetect (List.mem_cons_of_mem step hmem)) hafter)

end Equipment

end DebugMonitor.Sim
