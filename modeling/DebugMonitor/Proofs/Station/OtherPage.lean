import DebugMonitor.Proofs.Station.Beside

/-!
# Whatever the page register holds

On a layout where the window moves, the page register might as well have held anything else when
the monitor came: two stations that differ in it alone give the same histories (`history_turned`).
Every answer, every byte sent and every stop is the same, over the terminal as over the UART.

Detection is left out. It goes by the layout of the chip that it finds, and on a chip with unified
addressing the page that the register holds is the only one there is.
-/

namespace DebugMonitor.Sim

variable {first second : Chip}

/-! ### Stations -/

/-- Two stations that differ in the page register of their chips alone. -/
structure Station.OtherPage (first second : Chip) (left right : Station) : Prop where
  chip : Chip.OtherPage first second left.chip right.chip
  terminal_eq : left.terminal = right.terminal
  editor_eq : left.editor = right.editor

/-- Such stations stand side by side, and neither has shown anything that the other has not. -/
theorem Station.otherPage_iff_beside {left right : Station} :
    OtherPage first second left right ↔ Beside (Chip.OtherPage first second) [] left right := by
  constructor
  · intro h
    exact ⟨h.chip, by rw [h.terminal_eq, List.append_nil], h.editor_eq⟩
  · intro h
    exact ⟨h.chip, by rw [h.terminal_eq, List.append_nil], h.editor_eq⟩

/-! ### Steps -/

structure Site.OtherPage (first second : Chip) (left right : Site) : Prop where
  station : Station.OtherPage first second left.station right.station
  session_eq : left.session = right.session

/-- The site with its page register changed behind its back. -/
def Site.turned (site : Site) (page : UInt8) (switches : Nat) : Site :=
  { site with station := site.station.withChip (site.station.chip.turned page switches) }

theorem Site.otherPage_turned (site : Site) (page : UInt8) (switches : Nat) :
    OtherPage site.station.chip (site.turned page switches).station.chip site
      (site.turned page switches) where
  station := ⟨.start rfl, rfl, rfl⟩
  session_eq := rfl

/-- Two entries for the same step, with the same outcome, which leaves the sites as far apart as
they were. -/
structure Entry.OtherPage (first second : Chip) (left right : Entry) : Prop where
  step_eq : left.step = right.step
  outcome_eq : left.outcome = right.outcome
  after : Site.OtherPage first second left.after right.after

namespace Equipment

variable {equipment : Equipment} {left right : Site}

/-- Two sites that differ in their page go through the same history. -/
theorem history_otherPage (hbanked : equipment.layout.paging = .banked)
    (h : Site.OtherPage first second left right) {steps : List Step} (hsteps : .detect ∉ steps) :
    List.Forall₂ (Entry.OtherPage first second) (equipment.history left steps)
      (equipment.history right steps) := by
  have hbeside := equipment.history_beside (Chip.OtherPage.steady hbanked)
    (fun hdetect => absurd hdetect hsteps) ⟨Station.otherPage_iff_beside.mp h.station, h.session_eq⟩
  refine hbeside.imp fun before after hentry => ⟨hentry.step_eq, hentry.outcome_eq, ?_⟩
  exact ⟨Station.otherPage_iff_beside.mpr hentry.after.station, hentry.after.session_eq⟩

/-- **Where the window moves, a history does not depend on where it was.** Whatever page the
register is made to hold at first, every step ends as it would have ended otherwise, and leaves
everything but the register the same. The register keeps what it was made to hold, and is written
equally often. -/
theorem history_turned (hbanked : equipment.layout.paging = .banked) (site : Site) (page : UInt8)
    (switches : Nat) {steps : List Step} (hsteps : .detect ∉ steps) :
    List.Forall₂ (Entry.OtherPage site.station.chip (site.turned page switches).station.chip)
      (equipment.history site steps) (equipment.history (site.turned page switches) steps) :=
  history_otherPage hbanked (site.otherPage_turned page switches) hsteps

/-- A word across the end of the window, with the window on another page, and then the UART. -/
theorem history_turned_straddling :
    let config : Config :=
      { variant := .unknown
        layout := ⟨.banked, 0x18000, 0xc00000, some ⟨0x100, 0x18000, 0x87, 1⟩⟩ }
    let equipment : Equipment := ⟨⟨config, ⟨[], []⟩, 0⟩, .uart 0x5100, 1⟩
    let site : Site := ⟨{ chip := {} }, .start config.layout⟩
    let steps : List Step :=
      [.device (.attachUart 0x5100), .work (.access (.writeWord 0x17ffe 0x04030201)),
        .device (.peek 0x17ffe), .work (.access (.readWord 0x17ffe)), .work .poll]
    equipment.layout.paging = .banked ∧ .detect ∉ steps ∧
      List.Forall₂ (Entry.OtherPage site.station.chip (site.turned 9 4).station.chip)
        (equipment.history site steps) (equipment.history (site.turned 9 4) steps) := by
  intro config equipment site steps
  have hbanked : equipment.layout.paging = .banked := rfl
  have hsteps : Step.detect ∉ steps := by simp [steps]
  exact ⟨hbanked, hsteps, history_turned hbanked site 9 4 hsteps⟩

end Equipment

end DebugMonitor.Sim
