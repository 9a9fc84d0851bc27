import DebugMonitor.Proofs.Memory.Bracket
import DebugMonitor.Proofs.Trace

/-!
# The page register belongs to the access

Every access that moves the window moves it back, so between accesses the page register holds what
its owner put there. `keeps_memory` says what an access leaves as it was, and that all it costs is
two writes of the page register, and those only where the window has to be moved. Runs add up what
their accesses cost (`Keeps.trans`).

Where the window is moved, nothing depends on where it was. `OtherPage` relates two chips that
differ in the page register alone, and every access keeps them in step (`inStep_memory_otherPage`).
-/

namespace DebugMonitor

open Sim

/-- How often accesses write the page register: twice for each byte in the window, if it moves. -/
def Layout.pageWrites (layout : Layout) (accesses : List Memory.Request) : Nat :=
  match layout.paging with
  | .unified => 0
  | .banked => 2 * accesses.countP (·.address < layout.codeStart)

@[simp] theorem Layout.pageWrites_nil (layout : Layout) : layout.pageWrites [] = 0 := by
  rw [pageWrites]
  cases layout.paging <;> rfl

/-- Page writes add up. -/
theorem Layout.pageWrites_append (layout : Layout) (s t : List Memory.Request) :
    layout.pageWrites (s ++ t) = layout.pageWrites s + layout.pageWrites t := by
  rw [pageWrites, pageWrites, pageWrites]
  cases layout.paging with
  | unified => rfl
  | banked => rw [List.countP_append, Nat.mul_add]

/-- Data below the code is seen through the window, and nothing else is. -/
theorem Layout.route_cases (layout : Layout) (address : UInt32) :
    (address < layout.codeStart ∧ ∃ page offset, layout.route address = .window page offset) ∨
      (¬ (layout.paging = .banked ∧ address < layout.codeStart) ∧
        ∀ page offset, layout.route address ≠ .window page offset) := by
  rw [route]
  by_cases hdata : address < layout.codeStart
  · rw [if_pos hdata]
    by_cases hbeyond : layout.paging = .unified ∧ (address >>> 16).toUInt8 ≠ 0
    · right
      refine ⟨fun h => ?_, fun page offset => ?_⟩
      · rw [hbeyond.1] at h
        cases h.1
      · rw [if_pos hbeyond]
        exact Route.noConfusion
    · exact .inl ⟨hdata, _, _, if_neg hbeyond⟩
  · rw [if_neg hdata]
    right
    refine ⟨fun h => hdata h.2, fun page offset => ?_⟩
    split <;> exact Route.noConfusion

namespace Sim.Chip

/-! ### What accesses leave as it was -/

/-- Where nothing moves the window, data outside it cannot be reached. -/
structure Keeps (layout : Layout) (accesses : List Memory.Request) (before after : Chip) :
    Prop where
  page_eq : after.page = before.page
  pageSwitches_eq : after.pageSwitches = before.pageSwitches + layout.pageWrites accesses
  peek_eq : layout.paging = .unified → ∀ address : UInt32,
    address >>> 16 ≠ before.page.toUInt32 → after.peek address = before.peek address

namespace Keeps

variable {layout : Layout} {before middle after : Chip}

theorem refl (layout : Layout) (chip : Chip) : Keeps layout [] chip chip where
  page_eq := rfl
  pageSwitches_eq := by rw [Layout.pageWrites_nil, Nat.add_zero]
  peek_eq _ _ _ := rfl

theorem trans {first second : List Memory.Request} (h : Keeps layout first before middle)
    (h' : Keeps layout second middle after) : Keeps layout (first ++ second) before after where
  page_eq := h'.page_eq.trans h.page_eq
  pageSwitches_eq := by
    rw [h'.pageSwitches_eq, h.pageSwitches_eq, Layout.pageWrites_append, Nat.add_assoc]
  peek_eq hunified address hpage := by
    have hmiddle : address >>> 16 ≠ middle.page.toUInt32 := h.page_eq ▸ hpage
    exact (h'.peek_eq hunified address hmiddle).trans (h.peek_eq hunified address hpage)

/-- Setting a register keeps page and data. -/
theorem writeRegister (layout : Layout) (chip : Chip) (index value : UInt8) :
    Keeps layout [] chip (chip.writeRegister index value) := by
  obtain ⟨registers, hframe⟩ := chip.writeRegister_frame index value
  rw [hframe]
  exact ⟨rfl, by simp, fun _ _ _ => rfl⟩

end Keeps

variable {layout : Layout}

/-- The page of a physical address is that of the window through which it is seen. -/
theorem physical_shiftRight (chip : Chip) (offset : UInt16) :
    chip.physical offset >>> 16 = chip.page.toUInt32 := by
  have hpage : chip.page.toNat < 256 := chip.page.toNat_lt
  have hoffset : offset.toNat < 2 ^ 16 := offset.toNat_lt
  rw [← UInt32.toNat_inj, UInt32.toNat_shiftRight, physical, UInt32.toNat_or,
    UInt32.toNat_shiftLeft, UInt8.toNat_toUInt32, UInt16.toNat_toUInt32]
  rw [show (16 : UInt32).toNat % 32 = 16 from rfl]
  rw [Nat.mod_eq_of_lt (by omega), ← Nat.shiftLeft_add_eq_or_of_lt hoffset]
  omega

/-- A store through the window reaches nothing outside the window. -/
theorem peek_store_of_ne {chip : Chip} {written address : UInt32} (h : written ≠ address)
    (value : UInt8) : (chip.store written value).peek address = chip.peek address := by
  rw [store]
  cases chip.uartRegister? written with
  | some found => rfl
  | none =>
    cases chip.reachable written with
    | true => exact (chip.peek_poke written address value).trans (if_neg h)
    | false => rfl

theorem keeps_load (hunified : layout.paging = .unified) (request : Memory.Request) (chip : Chip)
    (address : UInt32) : Keeps layout [request] chip (chip.load address).2 := by
  obtain ⟨uart, hframe⟩ := chip.load_frame address
  rw [hframe]
  refine ⟨rfl, ?_, fun _ _ _ => rfl⟩
  simp [Layout.pageWrites, hunified]

theorem keeps_store (hunified : layout.paging = .unified) (request : Memory.Request) (chip : Chip)
    (offset : UInt16) (value : UInt8) :
    Keeps layout [request] chip (chip.store (chip.physical offset) value) := by
  obtain ⟨data, uart, hframe⟩ := chip.store_frame (chip.physical offset) value
  refine ⟨?_, ?_, ?_⟩
  · rw [hframe]
  · rw [hframe]
    simp [Layout.pageWrites, hunified]
  · intro _ address hpage
    apply peek_store_of_ne
    rintro rfl
    exact hpage (chip.physical_shiftRight offset)

/-- Where the window moves, it moves twice. -/
theorem keeps_switched (hbanked : layout.paging = .banked) {request : Memory.Request}
    (hwindow : request.address < layout.codeStart) {chip after : Chip}
    (hpage : after.page = chip.page) (hswitches : after.pageSwitches = chip.pageSwitches) :
    Keeps layout [request] chip (after.switched 2) where
  page_eq := hpage
  pageSwitches_eq := by
    simp [switched, hswitches, Layout.pageWrites, hbanked, hwindow]
  peek_eq hunified := by
    rw [hbanked] at hunified
    cases hunified

/-- An access that does not go through the window does not move it. -/
theorem keeps_of_not_window {request : Memory.Request}
    (hwindow : ¬ (layout.paging = .banked ∧ request.address < layout.codeStart))
    {chip after : Chip} (hpage : after.page = chip.page)
    (hswitches : after.pageSwitches = chip.pageSwitches) (hdata : after.data = chip.data) :
    Keeps layout [request] chip after where
  page_eq := hpage
  pageSwitches_eq := by
    rw [hswitches, Layout.pageWrites]
    cases hpaging : layout.paging with
    | unified => rfl
    | banked =>
      have haddress : ¬ request.address < layout.codeStart := fun h => hwindow ⟨hpaging, h⟩
      simp [haddress]
  peek_eq _ address _ := by rw [peek, peek, hdata]

theorem keeps_readCycle_window {address : UInt32} (hwindow : address < layout.codeStart)
    (page : UInt8) (offset : UInt16) (chip : Chip) :
    ∃ answer after,
      (layout.readCycle (.window page offset)).handle bus chip = .ok answer after ∧
        Keeps layout [.read address] chip after := by
  rw [Layout.readCycle]
  cases hpaging : layout.paging with
  | unified =>
    rw [paged_of_unified hpaging, handle_load]
    exact ⟨_, _, rfl, keeps_load hpaging _ chip _⟩
  | banked =>
    rw [handle_paged_load hpaging]
    obtain ⟨uart, hframe⟩ := chip.load_frame (windowAddress page offset)
    rw [hframe]
    have hrequest : (Memory.Request.read address).address < layout.codeStart := hwindow
    exact ⟨_, _, rfl, keeps_switched hpaging hrequest rfl rfl⟩

theorem keeps_writeCycle_window {address : UInt32} (hwindow : address < layout.codeStart)
    (page : UInt8) (offset : UInt16) (value : UInt8) (chip : Chip) :
    ∃ answer after,
      (layout.writeCycle value (.window page offset)).handle bus chip = .ok answer after ∧
        Keeps layout [.write address value] chip after := by
  rw [Layout.writeCycle]
  cases hpaging : layout.paging with
  | unified =>
    rw [paged_of_unified hpaging, handle_store]
    exact ⟨_, _, rfl, keeps_store hpaging _ chip offset value⟩
  | banked =>
    rw [handle_paged_store hpaging]
    obtain ⟨data, uart, hframe⟩ := chip.store_frame (windowAddress page offset) value
    rw [hframe]
    have hrequest : (Memory.Request.write address value).address < layout.codeStart := hwindow
    exact ⟨_, _, rfl, keeps_switched hpaging hrequest rfl rfl⟩

/-- Away from the window, reading changes nothing, and writing changes registers at most. -/
theorem handle_elsewhere {route : Route} (h : ∀ page offset, route ≠ .window page offset)
    (chip : Chip) :
    (∃ answer, (layout.readCycle route).handle bus chip = .ok answer chip) ∧
      ∀ value, ∃ registers,
        (layout.writeCycle value route).handle bus chip = .ok () { chip with registers } := by
  cases route with
  | window page offset => exact absurd rfl (h page offset)
  | nowhere => exact ⟨⟨0, rfl⟩, fun _ => ⟨chip.registers, rfl⟩⟩
  | code offset => exact ⟨⟨_, rfl⟩, fun _ => ⟨chip.registers, rfl⟩⟩
  | register index =>
    refine ⟨⟨chip.readRegister index, rfl⟩, fun value => ?_⟩
    obtain ⟨registers, hframe⟩ := chip.writeRegister_frame index value
    exact ⟨registers, congrArg (EStateM.Result.ok ()) hframe⟩

/-- Every cycle is answered and keeps the page. -/
theorem keeps_cycle (request : Memory.Request) (chip : Chip) :
    ∃ answer after, (layout.cycle request).handle bus chip = .ok answer after ∧
      Keeps layout [request] chip after := by
  -- Only an access through the window can touch the page register.
  rcases layout.route_cases request.address with ⟨hwindow, page, offset, hroute⟩ | ⟨hwindow, hroute⟩
  · cases request with
    | read address =>
      rw [Layout.cycle, show layout.route address = _ from hroute]
      exact keeps_readCycle_window hwindow page offset chip
    | write address value =>
      rw [Layout.cycle, show layout.route address = _ from hroute]
      exact keeps_writeCycle_window hwindow page offset value chip
  · obtain ⟨hread, hwrite⟩ := handle_elsewhere hroute chip
    cases request with
    | read address =>
      obtain ⟨answer, hanswer⟩ := hread
      exact ⟨answer, chip, hanswer, keeps_of_not_window hwindow rfl rfl rfl⟩
    | write address value =>
      obtain ⟨registers, hregisters⟩ := hwrite value
      exact ⟨(), _, hregisters, keeps_of_not_window hwindow rfl rfl rfl⟩

/-- **An access leaves the page register as it was,** and writes it twice if the window moves. -/
theorem keeps_memory (request : Memory.Request) (chip : Chip) :
    ∃ answer after, memory layout request chip = .ok answer after ∧
      Keeps layout [request] chip after := by
  rw [memory, Layout.access_eq]
  rcases powered_cases layout request.address with hplain | ⟨gate, hgate, hcovers⟩
  · rw [hplain]
    exact keeps_cycle request chip
  · let opened := chip.readRegister gate.register ||| gate.mask
    have hbefore := Keeps.writeRegister layout chip gate.register opened
    obtain ⟨answer, after, hcycle, hkeeps⟩ :=
      keeps_cycle request (chip.writeRegister gate.register opened)
    have hafter := Keeps.writeRegister layout after gate.register (chip.readRegister gate.register)
    refine ⟨answer, _, powered_of_covers hgate hcovers hcycle, ?_⟩
    exact (hbefore.trans hkeeps).trans hafter

/-- Programs on the memory keep what their accesses keep. -/
theorem keeps_handle {α : Type} (program : Program Memory α) (chip : Chip) :
    Keeps layout (program.trace (memory layout) chip) chip
      (finalState (program.handle (memory layout) chip)) := by
  refine Program.trace_induction (motive := Keeps layout) ?_ ?_ program chip
  · exact fun chip => .refl layout chip
  · intro request rest before after hrest
    obtain ⟨answer, next, hnext, hkeeps⟩ := keeps_memory request before
    rw [hnext] at hrest
    exact hkeeps.trans hrest

/-! ### What does not depend on the page -/

/-- Two chips that differ in the page register alone. Each holds the page it held at first, and both
have written the register equally often since then. -/
structure OtherPage (first second left right : Chip) : Prop where
  page_eq : left.page = first.page
  right_eq : right = left.turned second.page right.pageSwitches
  switches_eq : left.pageSwitches + second.pageSwitches = right.pageSwitches + first.pageSwitches

/-- What is done to a chip without looking at the page register or writing it. -/
def Blind {α : Type} (act : Chip → α × Chip) : Prop :=
  ∀ chip page switches,
    act (chip.turned page switches) = ((act chip).1, (act chip).2.turned page switches)

/-- A relation between chips that nothing breaks which is done blindly, and no access either. -/
structure Steady (layout : Layout) (R : Chip → Chip → Prop) : Prop where
  act {α : Type} {act : Chip → α × Chip} : Blind act → ∀ {left right : Chip}, R left right →
    (act left).1 = (act right).1 ∧ R (act left).2 (act right).2
  memory (request : Memory.Request) : InStep R (memory layout request) (memory layout request)

namespace OtherPage

variable {first second left right : Chip}

theorem start (h : right = left.turned right.page right.pageSwitches) :
    OtherPage left right left right where
  page_eq := rfl
  right_eq := h
  switches_eq := Nat.add_comm _ _

/-- An act that is blind to the page does the same on both chips. -/
theorem act {α : Type} {act : Chip → α × Chip} (hact : Blind act)
    (h : OtherPage first second left right) :
    (act left).1 = (act right).1 ∧ OtherPage first second (act left).2 (act right).2 := by
  have hleft : act left = ((act left).1, (act left).2.turned left.page left.pageSwitches) :=
    hact left left.page left.pageSwitches
  have hright : act right = ((act left).1, (act left).2.turned second.page right.pageSwitches) := by
    rw [h.right_eq]
    exact hact left second.page right.pageSwitches
  have hpage : (act left).2.page = left.page := congrArg (fun result => result.2.page) hleft
  have hswitches : (act left).2.pageSwitches = left.pageSwitches :=
    congrArg (fun result => result.2.pageSwitches) hleft
  rw [hright]
  refine ⟨rfl, hpage.trans h.page_eq, rfl, ?_⟩
  rw [hswitches]
  exact h.switches_eq

theorem switched (h : OtherPage first second left right) (count : Nat) :
    OtherPage first second (left.switched count) (right.switched count) where
  page_eq := h.page_eq
  right_eq := by
    rw [h.right_eq]
    rfl
  switches_eq := by
    have hswitches := h.switches_eq
    show left.pageSwitches + count + _ = right.pageSwitches + count + _
    omega

/-- What is done blindly is done alike, and the page switches after it are counted alike. -/
theorem inStep {α : Type} {act : Chip → α × Chip} (hact : Blind act) (count : Nat)
    {run : EStateM Stop Chip α}
    (hrun : ∀ chip, run chip = .ok (act chip).1 ((act chip).2.switched count)) :
    InStep (OtherPage first second) run run := by
  intro left right h
  obtain ⟨hanswer, hafter⟩ := h.act hact
  rw [hrun, hrun, hanswer]
  exact .ok (hafter.switched count)

end OtherPage

variable {first second : Chip}

/-- A banked reading cycle turns to its own page, so the page before does not matter. -/
theorem inStep_readCycle (hbanked : layout.paging = .banked) (route : Route) :
    InStep (OtherPage first second) ((layout.readCycle route).handle bus)
      ((layout.readCycle route).handle bus) := by
  cases route with
  | window page offset =>
    have hblind : Blind fun chip => chip.load (windowAddress page offset) :=
      fun chip page switches => chip.load_turned page switches _
    exact OtherPage.inStep hblind 2 (handle_paged_load hbanked page offset)
  | nowhere => exact InStep.pure _
  | code offset =>
    have hblind : Blind fun chip => (chip.code.get offset.toNat, chip) := fun _ _ _ => rfl
    exact OtherPage.inStep hblind 0 fun _ => rfl
  | register index =>
    have hblind : Blind fun chip => (chip.readRegister index, chip) := fun _ _ _ => rfl
    exact OtherPage.inStep hblind 0 fun _ => rfl

theorem inStep_setRegister (index value : UInt8) :
    InStep (OtherPage first second) (bus (.setRegister index value))
      (bus (.setRegister index value)) := by
  have hblind : Blind fun chip => ((), chip.writeRegister index value) := by
    intro chip page switches
    simp only [writeRegister]
    split <;> rfl
  exact OtherPage.inStep hblind 0 fun _ => rfl

theorem inStep_writeCycle (hbanked : layout.paging = .banked) (route : Route) (value : UInt8) :
    InStep (OtherPage first second) ((layout.writeCycle value route).handle bus)
      ((layout.writeCycle value route).handle bus) := by
  cases route with
  | window page offset =>
    have hblind : Blind fun chip => ((), chip.store (windowAddress page offset) value) :=
      fun chip page switches => congrArg (Prod.mk ()) (chip.store_turned page switches _ value)
    exact OtherPage.inStep hblind 2 (handle_paged_store hbanked page offset value)
  | nowhere => exact InStep.pure _
  | code offset => exact InStep.pure _
  | register index => exact inStep_setRegister index value

/-- **Where the window moves, no access depends on where it was.** -/
theorem inStep_memory_otherPage (hbanked : layout.paging = .banked) (request : Memory.Request) :
    InStep (OtherPage first second) (memory layout request) (memory layout request) := by
  have hregister : ∀ index, InStep (OtherPage first second) (bus (.register index))
      (bus (.register index)) := by
    intro index
    have hblind : Blind fun chip => (chip.readRegister index, chip) := fun _ _ _ => rfl
    exact OtherPage.inStep hblind 0 fun _ => rfl
  rw [memory, Layout.access_eq]
  apply inStep_powered hregister inStep_setRegister
  cases request with
  | read address => exact inStep_readCycle hbanked _
  | write address value => exact inStep_writeCycle hbanked _ value

/-- Chips that differ in their page stay in step. -/
theorem OtherPage.steady (hbanked : layout.paging = .banked) :
    Steady layout (OtherPage first second) where
  act hact := fun h => h.act hact
  memory := inStep_memory_otherPage hbanked

end Sim.Chip

end DebugMonitor
