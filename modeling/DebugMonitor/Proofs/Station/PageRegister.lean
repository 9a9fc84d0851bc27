import DebugMonitor.Proofs.Memory.PageRegister
import DebugMonitor.Proofs.Station.Step

/-!
# The page register over whole histories

However long a station is used, by whatever steps and over either channel, the page register stays
what it was, since the library touches it only in accesses (`history_keeps`). A console program may
be stopped anywhere, but an access is never stopped in the middle.
-/

namespace DebugMonitor

open Sim

variable {α β : Type}

theorem finalState_bind_pure {ε σ : Type} (run : EStateM ε σ α) (f : α → β) (s : σ) :
    finalState ((run >>= fun a => pure (f a)) s) = finalState (run s) := by
  show finalState (EStateM.bind run _ s) = _
  rw [EStateM.bind]
  cases run s <;> rfl

namespace Sim

/-! ### What console programs leave as it was -/

namespace Station

variable {layout : Layout}

theorem finalState_onChip (run : EStateM Stop Chip α) (station : Station) :
    finalState (onChip run station) = station.withChip (finalState (run station.chip)) := by
  rw [onChip_apply]
  cases run station.chip <;> rfl

theorem finalState_onTerminal (run : EStateM Stop Terminal α) (station : Station) :
    finalState (onTerminal run station) =
      station.withTerminal (finalState (run station.terminal)) := by
  rw [onTerminal_apply]
  cases run station.terminal <;> rfl

theorem keeps_console (request : Console.Request) (station : Station) :
    Chip.Keeps layout request.memory?.toList station.chip
      (finalState (console layout direct request station)).chip := by
  cases request with
  | memory request =>
    rw [console_memory, finalState_onChip]
    obtain ⟨answer, after, hafter, hkeeps⟩ := Chip.keeps_memory request station.chip
    rw [hafter]
    exact hkeeps
  | serial request =>
    show Chip.Keeps layout [] _ (finalState (onTerminal (Terminal.serial request) station)).chip
    rw [finalState_onTerminal]
    exact .refl layout station.chip
  | editor => exact .refl layout station.chip
  | setEditor editor => exact .refl layout station.chip
  | halt => exact .refl layout station.chip

/-- A console program keeps what its accesses keep, also when it stops. -/
theorem keeps_handle (p : Program Console α) (station : Station) :
    Chip.Keeps layout ((p.trace (console layout direct) station).filterMap Console.Request.memory?)
      station.chip (finalState (p.handle (console layout direct) station)).chip := by
  refine Program.trace_induction (motive := fun requests before after =>
    Chip.Keeps layout (requests.filterMap Console.Request.memory?) before.chip after.chip)
    ?_ ?_ p station
  · exact fun station => .refl layout station.chip
  · intro request rest before after hrest
    have hstep := (keeps_console request before).trans hrest
    cases hmemory : request.memory? with
    | none => simpa [hmemory] using hstep
    | some found => simpa [hmemory] using hstep

end Station

/-! ### Detection -/

namespace Chip

/-- Reading code changes nothing. -/
theorem handle_readCode (offset : UInt32) (count : Nat) (chip : Chip) :
    (Variant.readCode offset count).handle bus chip =
      .ok ((List.range count).map fun i => chip.code.get (offset + i.toUInt32).toNat) chip := by
  induction count generalizing offset with
  | zero => rfl
  | succ count ih =>
    rw [Variant.readCode]
    rw [Program.handle_bind_ok (a := chip.code.get offset.toNat) (t := chip) rfl]
    rw [Program.handle_bind_ok (ih (offset + 1))]
    rw [List.range_succ_eq_map, List.map_cons, List.map_map, Memory.add_zero_offset]
    have hrest : (fun i : Nat => chip.code.get (offset + i.toUInt32).toNat) ∘ Nat.succ =
        fun i => chip.code.get (offset + 1 + i.toUInt32).toNat := by
      funext i
      exact congrArg (chip.code.get ·.toNat) (Memory.add_succ_offset offset i)
    rw [hrest]
    rfl

/-- Detection finds the chip's variant, and does what its configuration asks for. -/
theorem handle_detect (chip : Chip) :
    Config.detect.handle bus chip =
      (chip.config.setUpUart.handle (memory chip.config.layout) >>= fun _ =>
        pure chip.config) chip := by
  rw [Config.detect, Variant.readToken]
  rw [Program.handle_bind_ok (chip.handle_readCode Variant.tokenOffset Variant.tokenSize)]
  show ((chip.config.layout.lower chip.config.setUpUart >>= fun _ => pure chip.config).handle bus)
    chip = _
  rw [Program.handle_bind, handle_lower]
  rfl

theorem keeps_detect (chip : Chip) :
    Keeps chip.config.layout (chip.config.setUpUart.trace (memory chip.config.layout) chip) chip
      (finalState (Config.detect.handle bus chip)) := by
  rw [handle_detect, finalState_bind_pure]
  exact keeps_handle chip.config.setUpUart chip

end Chip

/-! ### Histories -/

namespace Equipment

variable (equipment : Equipment) (site : Site)

theorem perform_station (step : Step) :
    (equipment.perform site step).2.station = finalState (equipment.run site step) := by
  rw [perform]
  cases equipment.run site step <;> rfl

/-- A piece of work keeps what its accesses keep. -/
theorem keeps_work (task : Work) :
    Chip.Keeps equipment.layout (task.accesses equipment site) site.station.chip
      (equipment.perform site (.work task)).2.station.chip := by
  rw [perform_station, run, console, ← Station.handle_over]
  exact Station.keeps_handle _ site.station

theorem keeps_detect :
    Chip.Keeps (Step.detect.layout equipment site) (Step.detect.accesses equipment site)
      site.station.chip (equipment.perform site .detect).2.station.chip := by
  rw [perform_station, run, Program.handle_bind]
  simp only [Program.handle_pure]
  rw [finalState_bind_pure, Station.handle_bus, Station.finalState_onChip]
  exact Chip.keeps_detect site.station.chip

/-- What is done without the library has no access in it, and only pokes change data. -/
theorem keeps_device (device : Device) :
    (equipment.perform site (.device device)).2.station.chip.page = site.station.chip.page ∧
      (equipment.perform site (.device device)).2.station.chip.pageSwitches =
        site.station.chip.pageSwitches ∧
      ((∀ address value, device ≠ .poke address value) → ∀ address,
        (equipment.perform site (.device device)).2.station.chip.peek address =
          site.station.chip.peek address) := by
  cases device with
  | poke address value => exact ⟨rfl, rfl, fun h => absurd rfl (h address value)⟩
  | peek address => exact ⟨rfl, rfl, fun _ _ => rfl⟩
  | loadCode offset image => exact ⟨rfl, rfl, fun _ _ => rfl⟩
  | lock band => exact ⟨rfl, rfl, fun _ _ => rfl⟩
  | attachUart base => exact ⟨rfl, rfl, fun _ _ => rfl⟩
  | pushUart bytes => exact ⟨rfl, rfl, fun _ _ => rfl⟩
  | type bytes => exact ⟨rfl, rfl, fun _ _ => rfl⟩

/-- What a step leaves as it was, and what it costs. -/
theorem perform_keeps (step : Step) :
    (equipment.perform site step).2.station.chip.page = site.station.chip.page ∧
      (equipment.perform site step).2.station.chip.pageSwitches = site.station.chip.pageSwitches +
        (step.layout equipment site).pageWrites (step.accesses equipment site) ∧
      ((step.layout equipment site).paging = .unified →
        (∀ address value, step ≠ .device (.poke address value)) →
        ∀ address : UInt32, address >>> 16 ≠ site.station.chip.page.toUInt32 →
          (equipment.perform site step).2.station.chip.peek address =
            site.station.chip.peek address) := by
  cases step with
  | work task =>
    have hkeeps := equipment.keeps_work site task
    exact ⟨hkeeps.page_eq, hkeeps.pageSwitches_eq, fun hunified _ => hkeeps.peek_eq hunified⟩
  | detect =>
    have hkeeps := equipment.keeps_detect site
    exact ⟨hkeeps.page_eq, hkeeps.pageSwitches_eq, fun hunified _ => hkeeps.peek_eq hunified⟩
  | device device =>
    obtain ⟨hpage, hswitches, hdata⟩ := equipment.keeps_device site device
    refine ⟨hpage, ?_, fun _ hpoke address _ => ?_⟩
    · rw [hswitches, Step.accesses, Layout.pageWrites_nil, Nat.add_zero]
    · exact hdata (fun address value h => hpoke address value (congrArg Step.device h)) address

/-- **The page register is the same before and after every step,** whether the step returns or is
stopped. It is written twice for each byte accessed in the window where the window moves, and not at
all where it does not; there, data of other pages stays as it was unless it is poked. -/
theorem history_keeps (steps : List Step) :
    ∀ entry ∈ equipment.history site steps,
      entry.before.station.chip.page = site.station.chip.page ∧
      entry.after.station.chip.page = site.station.chip.page ∧
      entry.after.station.chip.pageSwitches = entry.before.station.chip.pageSwitches +
        (entry.step.layout equipment entry.before).pageWrites
          (entry.step.accesses equipment entry.before) ∧
      ((entry.step.layout equipment entry.before).paging = .unified →
        (∀ address value, entry.step ≠ .device (.poke address value)) →
        ∀ address : UInt32, address >>> 16 ≠ site.station.chip.page.toUInt32 →
          entry.after.station.chip.peek address = entry.before.station.chip.peek address) := by
  induction steps generalizing site with
  | nil =>
    intro entry hentry
    cases hentry
  | cons step rest ih =>
    intro entry hentry
    obtain ⟨hpage, hswitches, hdata⟩ := equipment.perform_keeps site step
    rw [history_cons] at hentry
    rcases List.mem_cons.mp hentry with rfl | hlater
    · exact ⟨rfl, hpage, hswitches, hdata⟩
    · have hentry := ih _ entry hlater
      rw [hpage] at hentry
      exact hentry

/-- A poll over the UART moves the window for every register of the driver, and moves it back. -/
theorem history_keeps_poll :
    let equipment : Equipment := ⟨⟨.ofVariant .asm2142, ⟨[], []⟩, 0⟩, .uart 0x15100, 1⟩
    let chip : Chip := { page := 5, uart := some { base := 0x15100, received := [0x61] } }
    let site : Site := ⟨{ chip }, .start equipment.layout⟩
    let performed := equipment.perform site (.work .poll)
    let entry : Entry := ⟨.work .poll, site, performed.1, performed.2⟩
    entry ∈ equipment.history site [.work .poll] ∧
      entry.step.accesses equipment entry.before =
        [.read 0x15105, .read 0x15100, .read 0x15106, .write 0x15101 0x61] ∧
      entry.after.station.chip.page = 5 ∧ entry.after.station.chip.pageSwitches = 0 + 8 := by
  intro equipment chip site performed entry
  have hentry : entry ∈ equipment.history site [.work .poll] := List.mem_cons_self
  have haccesses : entry.step.accesses equipment entry.before =
      [.read 0x15105, .read 0x15100, .read 0x15106, .write 0x15101 0x61] := by
    decide +kernel
  obtain ⟨-, hpage, hswitches, -⟩ := history_keeps equipment site [.work .poll] entry hentry
  rw [haccesses] at hswitches
  exact ⟨hentry, haccesses, hpage, hswitches⟩

end Equipment

end Sim

end DebugMonitor
