import DebugMonitor.Proofs.Memory.Reading
import DebugMonitor.Proofs.Station.Input

/-!
# Looking around at a station

What a station does about a program that only looks is settled by its chip: the program returns the
same result and sends the same bytes wherever else the station stands, and leaves the chip as it was
(`Looking.runs`). What is sent comes behind everything that was shown before, and nothing else about
the station changes.
-/

namespace DebugMonitor

open Sim

variable {α β : Type}

namespace Sim.Station

variable {layout : Layout} {station : Station}

/-! ### What is shown -/

/-- The station after bytes were sent to its terminal. -/
def display (station : Station) (bytes : Bytes) : Station :=
  station.withTerminal { station.terminal with shown := bytes.reverse ++ station.terminal.shown }

@[simp] theorem chip_display (station : Station) (bytes : Bytes) :
    (station.display bytes).chip = station.chip := rfl

@[simp] theorem editor_display (station : Station) (bytes : Bytes) :
    (station.display bytes).editor = station.editor := rfl

@[simp] theorem typed_display (station : Station) (bytes : Bytes) :
    (station.display bytes).terminal.typed = station.terminal.typed := rfl

theorem display_display (station : Station) (s t : Bytes) :
    (station.display s).display t = station.display (s ++ t) := by
  simp [display, withTerminal]

theorem output_display (station : Station) (bytes : Bytes) :
    (station.display bytes).terminal.output = station.terminal.output ++ bytes := by
  simp [display, withTerminal, Terminal.output]

theorem handle_send (b : UInt8) (station : Station) :
    (Console.send b).handle (console layout direct) station = .ok () (station.display [b]) := rfl

theorem handle_sendAll (bytes : Bytes) (station : Station) :
    (Console.sendAll bytes).handle (console layout direct) station =
      .ok () (station.display bytes) := by
  induction bytes generalizing station with
  | nil => rfl
  | cons b rest ih =>
    rw [Console.sendAll, Program.handle_bind_ok (handle_send b station), ih, display_display]
    rfl

/-- A text is shown as it goes over the wire. -/
theorem handle_say (text : Text) (station : Station) :
    (Console.say text).handle (console layout direct) station =
      .ok () (station.display text.wire) :=
  handle_sendAll text.wire station

/-- What is done to the memory is done to the chip. -/
theorem handle_memory_ok (station : Station) {p : Program Memory α} {a : α} {chip : Chip}
    (h : p.handle (Chip.memory layout) station.chip = .ok a chip) :
    (Console.memory p).handle (console layout direct) station = .ok a (station.withChip chip) := by
  rw [handle_memory, onChip_apply, h]

/-- A run that returns is the one that its desk sees, beside the chip. -/
theorem handle_of_desk {p : Program Console α} {station after : Station} {found a : α}
    (hrun : p.handle (console layout direct) station = .ok found after)
    {effect : Program Memory Bytes} {desk : Bytes → Desk}
    (hdesk : p.handle (Desk.console layout Chip.bus) station.desk =
      ((layout.lower effect).handle Chip.bus >>= fun s => pure (a, desk s)))
    {s : Bytes} {chip : Chip}
    (heffect : effect.handle (Chip.memory layout) station.chip = .ok s chip) :
    p.handle (console layout direct) station =
      .ok a ⟨chip, (desk s).terminal, (desk s).editor⟩ := by
  rw [← Chip.handle_lower] at heffect
  have hseen := handle_desk hrun
  rw [hdesk, run_bind_ok heffect] at hseen
  injection hseen with hentry hchip
  obtain ⟨rfl, hafter⟩ := Prod.mk.inj hentry
  obtain ⟨_, terminal, editor⟩ := after
  rw [hrun, hchip, hafter]
  rfl

end Sim.Station

/-! ### Programs that look -/

/-- A program on the memory that reads in a region, and writes nothing. -/
abbrev Memory.ReadsInside (region : UInt32 → Prop) (p : Program Memory α) : Prop :=
  p.Within fun request : Memory.Request => request.IsRead ∧ region request.address

/-- A program that reads the memory where nothing is taken from the UART returns, and the chip is as
it was. -/
theorem Memory.ReadsInside.runs {region : UInt32 → Prop} {p : Program Memory α}
    (hp : Memory.ReadsInside region p) {layout : Layout} {chip : Chip}
    (hregion : ∀ address, region address → ¬ Chip.Receives layout chip address) :
    ∃ a after, p.handle (Chip.memory layout) chip = .ok a after ∧ Chip.Recounted after chip := by
  induction p generalizing chip with
  | done a => exact ⟨a, chip, rfl, .refl chip⟩
  | stalled => exact hp.elim
  | call request next ih =>
    cases request with
    | write address value => exact hp.1.1.elim
    | read address =>
      obtain ⟨answer, middle, hanswer, hmiddle⟩ :=
        Chip.memory_read_recounted (hregion address hp.1.2)
      -- Counting page switches moves no register, so the rest of the region is as safe as before.
      have hrest : ∀ address, region address → ¬ Chip.Receives layout middle address :=
        fun address hin => mt (hmiddle.receives_iff address).mp (hregion address hin)
      obtain ⟨a, after, hruns, hafter⟩ := ih answer (hp.2 answer) hrest
      refine ⟨a, after, ?_, hafter.trans hmiddle⟩
      rw [Program.handle_call, hanswer]
      exact hruns

/-- Without a UART nothing can be taken. -/
theorem Memory.Reads.runs {p : Program Memory α} (hp : Memory.Reads p) (layout : Layout)
    {chip : Chip} (huart : chip.uart = none) :
    ∃ a after, p.handle (Chip.memory layout) chip = .ok a after ∧ Chip.Recounted after chip := by
  have hanywhere : Memory.ReadsInside (fun _ => True) p := hp.mono fun _ hread => ⟨hread, trivial⟩
  exact hanywhere.runs fun address _ => Chip.not_receives_of_no_uart huart address

/-- **What is seen depends on the chip alone,** and looking changes nothing about it. -/
theorem Looking.runs {p : Program Console α} (hp : Looking p) (layout : Layout) {chip : Chip}
    (huart : chip.uart = none) :
    ∃ a s, ∀ station : Station, Chip.Recounted station.chip chip →
      ∃ after, Chip.Recounted after chip ∧
        p.handle (Station.console layout Station.direct) station =
          .ok a ((station.withChip after).display s) := by
  induction p with
  | done a => exact ⟨a, [], fun station h => ⟨station.chip, h, rfl⟩⟩
  | stalled => exact hp.elim
  | call request next ih =>
    cases request with
    | memory request =>
      cases request with
      | write address value => exact hp.1.elim
      | read address =>
        -- The byte that is read is the same wherever the station stands.
        obtain ⟨answer, read, hread, hrecounted⟩ :=
          Chip.memory_read_recounted (Chip.not_receives_of_no_uart huart address)
        obtain ⟨a, s, hrest⟩ := ih answer (hp.2 answer)
        refine ⟨a, s, fun station h => ?_⟩
        obtain ⟨found, hfound, hstep⟩ :=
          (Chip.inStep_memory_recounted (.read address)).returns h hread
        obtain ⟨after, hafter, hrun⟩ := hrest (station.withChip found) (hstep.trans hrecounted)
        refine ⟨after, hafter, ?_⟩
        rw [Program.handle_call, Station.console_memory, Station.onChip_apply, hfound]
        exact hrun
    | serial request =>
      cases request with
      | receive => exact hp.1.elim
      | flush => exact hp.1.elim
      | send b =>
        obtain ⟨a, s, hrest⟩ := ih () (hp.2 ())
        refine ⟨a, [b] ++ s, fun station h => ?_⟩
        obtain ⟨after, hafter, hrun⟩ := hrest (station.display [b]) h
        refine ⟨after, hafter, ?_⟩
        have hsent : Station.console layout Station.direct (.serial (.send b)) station =
            .ok () (station.display [b]) := rfl
        rw [Program.handle_call, hsent, ← Station.display_display]
        exact hrun
    | editor => exact hp.1.elim
    | setEditor editor => exact hp.1.elim
    | halt => exact hp.1.elim

/-! ### Showing a value -/

theorem Width.write_within (width : Width) (address value : UInt32) :
    (width.write address value).Within fun _ => True := by
  cases width with
  | byte => exact .ask trivial
  | word => exact Memory.writeBytes_within address _

namespace Sim.Station

variable {layout : Layout} {station : Station}

/-- The value is read and shown, and the chip is as it was. -/
theorem handle_showValue (station : Station) {width : Width} {address value : UInt32} {chip : Chip}
    (h : (width.read address).handle (Chip.memory layout) station.chip = .ok value chip) :
    (Monitor.showValue width address).handle (console layout direct) station =
      .ok () ((station.withChip chip).display (Monitor.valueLine width address value).wire) := by
  rw [Monitor.showValue, Program.handle_bind_ok (station.handle_memory_ok h), handle_say]

/-- Where the value is shown before and after, it is changed all the same. -/
theorem handle_showing (layout : Layout) (station : Station) (huart : station.chip.uart = none)
    (width : Width) (address value : UInt32) :
    ∃ changed after,
      (width.write address value).handle (Chip.memory layout) station.chip = .ok () changed ∧
      (Monitor.showing width address value).handle (console layout direct) station =
        .ok (.ok ()) after ∧
      Chip.Recounted after.chip changed := by
  obtain ⟨⟨⟩, changed, hwrite⟩ := (Width.write_within width address value).returns
    (fun request _ => Chip.memory_answers layout request) station.chip
  -- The read before the write only counts page switches, so the write does what it does on its own.
  obtain ⟨old, before, hold, hbefore⟩ := (Memory.Reads.width width address).runs layout huart
  obtain ⟨written, hwritten, hstep⟩ :=
    (Chip.inStep_handle_recounted (width.write address value)).returns hbefore hwrite
  -- The second read needs a chip without a UART as well.
  have hnone : written.uart = none := by
    have hkept :
        (finalState ((width.write address value).handle (Chip.memory layout) before)).uart = none :=
      Chip.uart_handle _ (hbefore.uart_eq.trans huart)
    rwa [hwritten] at hkept
  obtain ⟨new, last, hnew, hlast⟩ := (Memory.Reads.width width address).runs layout hnone
  let shown := (station.withChip before).display (Monitor.valueLine width address old).wire
  have hchange : (Monitor.changeValue width address value).handle (console layout direct) shown =
      .ok () (shown.withChip written) := shown.handle_memory_ok hwritten
  refine ⟨changed, ((shown.withChip written).withChip last).display
    (Monitor.valueLine width address new).wire, hwrite, ?_, hlast.trans hstep⟩
  rw [Monitor.showing, Program.handle_bind_ok (station.handle_showValue hold),
    Program.handle_bind_ok hchange,
    Program.handle_bind_ok ((shown.withChip written).handle_showValue hnew)]
  rfl

end Sim.Station

end DebugMonitor
