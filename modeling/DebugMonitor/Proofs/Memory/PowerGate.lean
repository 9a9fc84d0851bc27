import DebugMonitor.Proofs.Memory.Location

/-!
# The power gate opens the lock

A locked band of data answers only while its power bit is set. A layout with a gate sets the bit
around each access to the band and puts it back, so a user of the flat memory cannot tell the chip
from one without the lock. `history_unlock` compares the two runs access by access.

`Guarded` is what the gate has to know of the lock, and it is all the invariant there is: the two
chips differ in nothing but the lock itself. An access the gate does not cover never meets the lock.
Around one that it covers the register is changed, but a data access does not look at registers
other than through the lock, so the change can be moved past the access and undone there.
-/

namespace DebugMonitor

/-- The layout with another gate, or with none. -/
def Layout.withGate (layout : Layout) (gate : Option PowerGate) : Layout := { layout with gate }

/-- A gate moves nothing. -/
@[simp] theorem Layout.locate_withGate (layout : Layout) (gate : Option PowerGate)
    (address : UInt32) : (layout.withGate gate).locate address = layout.locate address := rfl

@[simp] theorem Layout.switches_withGate (layout : Layout) (gate : Option PowerGate)
    (location : Location) : (layout.withGate gate).switches location = layout.switches location :=
  rfl

theorem Layout.Fits.withGate {layout : Layout} {chip : Sim.Chip} (h : layout.Fits chip)
    (gate : Option PowerGate) : (layout.withGate gate).Fits chip :=
  ⟨h.codeStart_le, h.page_eq_zero⟩

namespace Sim.Chip

open Memory (Access)

/-- The chip without its lock. -/
def unlock (chip : Chip) : Chip := { chip with locked := none }

/-- The lock lies within the gate, on the same register, and one of the gate's bits opens it. -/
structure Guarded (gate : PowerGate) (chip : Chip) : Prop where
  within : ∀ band, chip.locked = some band →
    (∀ address, band.covers address = true → gate.covers address = true) ∧
    band.register = gate.register ∧ band.mask &&& gate.mask ≠ 0

/-! ### What the lock lets through -/

/-- The lock is nowhere but at the gate. -/
theorem reachable_of_not_covers {gate : PowerGate} {chip : Chip} (h : chip.Guarded gate)
    {address : UInt32} (hcovers : gate.covers address = false) :
    chip.reachable address = true := by
  have hfilter : chip.locked.filter (·.covers address) = none := by
    rw [Option.filter_eq_none_iff]
    intro band hband hcovered
    rw [(h.within band hband).1 address hcovered] at hcovers
    cases hcovers
  rw [reachable, hfilter]

theorem and_or_distrib_right (a b c : UInt8) : (a ||| b) &&& c = (a &&& c) ||| (b &&& c) := by
  rw [← UInt8.toNat_inj]
  simp only [UInt8.toNat_and, UInt8.toNat_or, Nat.and_or_distrib_right]

/-- Once the gate's bits are set, everything answers. -/
theorem reachable_of_powered {gate : PowerGate} {chip : Chip} (h : chip.Guarded gate)
    (address : UInt32) (value : UInt8) :
    (chip.setRegister gate.register (value ||| gate.mask)).reachable address = true := by
  rw [reachable]
  cases hfilter : (chip.setRegister gate.register (value ||| gate.mask)).locked.filter
      (·.covers address) with
  | none => rfl
  | some band =>
    obtain ⟨hband, -⟩ := Option.filter_eq_some_iff.mp hfilter
    obtain ⟨-, hregister, hmask⟩ := h.within band hband
    show decide _ = true
    rw [decide_eq_true_iff, hregister, register_setRegister, if_pos rfl, and_or_distrib_right]
    intro hzero
    rw [UInt8.or_eq_zero_iff, UInt8.and_comm gate.mask] at hzero
    exact hmask hzero.2

/-! ### Data does not depend on the lock, if it answers -/

/-- Where the lock lets an address through, it makes no difference to a load. -/
theorem load_unlock {chip : Chip} {address : UInt32} (h : chip.reachable address = true) :
    chip.unlock.load address = ((chip.load address).1, (chip.load address).2.unlock) := by
  have hreg : chip.unlock.uartRegister? address = chip.uartRegister? address := rfl
  rw [load, load, hreg]
  cases chip.uartRegister? address with
  | none =>
    show (if chip.unlock.reachable address then chip.unlock.peek address else 0, chip.unlock) = _
    rw [h]
    rfl
  | some found => rfl

theorem store_unlock {chip : Chip} {address : UInt32} (h : chip.reachable address = true)
    (value : UInt8) : chip.unlock.store address value = (chip.store address value).unlock := by
  have hreg : chip.unlock.uartRegister? address = chip.uartRegister? address := rfl
  rw [store, store, hreg]
  cases chip.uartRegister? address with
  | none =>
    show (if chip.unlock.reachable address then chip.unlock.poke address value else chip.unlock) = _
    rw [h]
    rfl
  | some found => rfl

theorem direct_unlock {chip : Chip} {location : Location}
    (h : ∀ address, location = .data address → chip.reachable address = true)
    (request : Memory.Request) :
    chip.unlock.direct location request =
      ((chip.direct location request).1, (chip.direct location request).2.unlock) := by
  cases location with
  | data address =>
    have hreachable := h address rfl
    cases request with
    | read _ => exact load_unlock hreachable
    | write _ value => exact congrArg (Prod.mk ()) (store_unlock hreachable value)
  | void => cases request <;> rfl
  | code offset => cases request <;> rfl
  | sfr index => cases request <;> rfl

/-! ### Without a lock, data does not depend on registers -/

theorem load_setRegister {chip : Chip} (hlocked : chip.locked = none) (address : UInt32)
    (index value : UInt8) :
    (chip.setRegister index value).load address =
      ((chip.load address).1, (chip.load address).2.setRegister index value) := by
  have hreg : (chip.setRegister index value).uartRegister? address = chip.uartRegister? address :=
    rfl
  have hreachable : (chip.setRegister index value).reachable address = true :=
    reachable_of_unlocked (show (chip.setRegister index value).locked = none from hlocked) address
  rw [load, load, hreg]
  cases chip.uartRegister? address with
  | none =>
    simp only [hreachable, reachable_of_unlocked hlocked address]
    rfl
  | some found => rfl

theorem store_setRegister {chip : Chip} (hlocked : chip.locked = none) (address : UInt32)
    (index value stored : UInt8) :
    (chip.setRegister index value).store address stored =
      (chip.store address stored).setRegister index value := by
  have hreg : (chip.setRegister index value).uartRegister? address = chip.uartRegister? address :=
    rfl
  have hreachable : (chip.setRegister index value).reachable address = true :=
    reachable_of_unlocked (show (chip.setRegister index value).locked = none from hlocked) address
  rw [store, store, hreg]
  cases chip.uartRegister? address with
  | none =>
    simp only [hreachable, reachable_of_unlocked hlocked address]
    rfl
  | some found => rfl

theorem direct_setRegister {chip : Chip} (hlocked : chip.locked = none) {location : Location}
    (hsfr : ∀ index, location ≠ .sfr index) (index value : UInt8) (request : Memory.Request) :
    (chip.setRegister index value).direct location request =
      ((chip.direct location request).1,
        (chip.direct location request).2.setRegister index value) := by
  cases location with
  | data address =>
    cases request with
    | read _ => exact load_setRegister hlocked address index value
    | write _ stored =>
      exact congrArg (Prod.mk ()) (store_setRegister hlocked address index value stored)
  | void => cases request <;> rfl
  | code offset => cases request <;> rfl
  | sfr found => exact absurd rfl (hsfr found)

/-! ### What an access leaves alone -/

/-- An access changes data, the UART and the registers at most, and registers only where it goes to
one. -/
theorem direct_frame (chip : Chip) (location : Location) (request : Memory.Request) :
    ∃ data uart registers,
      (chip.direct location request).2 = { chip with data, uart, registers } ∧
      ((∀ index, location ≠ .sfr index) → registers = chip.registers) := by
  cases request with
  | read _ =>
    cases location with
    | data address =>
      obtain ⟨uart, h⟩ := chip.load_frame address
      exact ⟨chip.data, uart, chip.registers, h, fun _ => rfl⟩
    | void => exact ⟨_, _, _, rfl, fun _ => rfl⟩
    | code offset => exact ⟨_, _, _, rfl, fun _ => rfl⟩
    | sfr index => exact ⟨_, _, _, rfl, fun _ => rfl⟩
  | write _ value =>
    cases location with
    | data address =>
      obtain ⟨data, uart, h⟩ := chip.store_frame address value
      exact ⟨data, uart, chip.registers, h, fun _ => rfl⟩
    | void => exact ⟨_, _, _, rfl, fun _ => rfl⟩
    | code offset => exact ⟨_, _, _, rfl, fun _ => rfl⟩
    | sfr index => exact ⟨_, _, _, rfl, fun hsfr => absurd rfl (hsfr index)⟩

/-! ### Two runs

One of the gated layout on the locked chip, one of the open layout on the chip without the lock. -/

variable {layout : Layout} {gate : PowerGate}

/-- The chip on the left is guarded, and the one on the right is the same without the lock. -/
structure Opened (layout : Layout) (gate : PowerGate) (chip other : Chip) : Prop where
  guarded : chip.Guarded gate
  fits : layout.Fits chip
  unlock_eq : chip.unlock = other

theorem Guarded.of_locked {chip other : Chip} (h : chip.Guarded gate)
    (hlocked : other.locked = chip.locked) : other.Guarded gate where
  within band hband := h.within band (hlocked ▸ hband)

/-- The direct way to an address that the gate does not cover. -/
theorem direct_of_not_covers (layout : Layout) {chip : Chip} (hguarded : chip.Guarded gate)
    {request : Memory.Request} (hcovers : gate.covers request.address = false) :
    chip.unlock.direct (layout.locate request.address) request =
      ((chip.direct (layout.locate request.address) request).1,
        (chip.direct (layout.locate request.address) request).2.unlock) := by
  apply direct_unlock
  intro found hfound
  rw [Layout.eq_of_locate_eq_data hfound]
  exact reachable_of_not_covers hguarded hcovers

/-- The direct way while the bits of the gate are set. -/
theorem direct_of_powered {chip : Chip} (hguarded : chip.Guarded gate) {location : Location}
    (hsfr : ∀ index, location ≠ .sfr index) (value : UInt8) (request : Memory.Request) :
    ((chip.setRegister gate.register (value ||| gate.mask)).direct location request).1 =
        (chip.unlock.direct location request).1 ∧
      ((chip.setRegister gate.register (value ||| gate.mask)).direct location request).2.unlock =
        (chip.unlock.direct location request).2.setRegister gate.register
          (value ||| gate.mask) := by
  -- First the lock goes, since everything answers, and then the register does not matter.
  have hreachable : ∀ address, location = .data address →
      (chip.setRegister gate.register (value ||| gate.mask)).reachable address = true :=
    fun address _ => reachable_of_powered hguarded address value
  have hopen := direct_unlock hreachable request
  have hunlocked : chip.unlock.locked = none := rfl
  have hmoved := direct_setRegister hunlocked hsfr gate.register (value ||| gate.mask) request
  have hsame : (chip.setRegister gate.register (value ||| gate.mask)).unlock =
      chip.unlock.setRegister gate.register (value ||| gate.mask) := rfl
  rw [hsame, hmoved] at hopen
  exact ⟨(congrArg Prod.fst hopen).symm, (congrArg Prod.snd hopen).symm⟩

theorem memory_withGate_none {chip : Chip} (hfits : layout.Fits chip) (request : Memory.Request) :
    memory (layout.withGate none) request chip =
      .ok (chip.direct (layout.locate request.address) request).1
        ((chip.direct (layout.locate request.address) request).2.switched
          (layout.switches (layout.locate request.address))) :=
  memory_of_not_covers (hfits.withGate none) fun _ h => nomatch h

/-- What an access leaves behind is as guarded, and fits as well, as what it found. -/
theorem Opened.of_direct (location : Location) (request : Memory.Request) {chip after other : Chip}
    (hguarded : chip.Guarded gate) (hfits : layout.Fits chip)
    (hlocked : after.locked = (chip.direct location request).2.locked)
    (hpage : after.page = (chip.direct location request).2.page) (hunlock : after.unlock = other) :
    Opened layout gate after other := by
  obtain ⟨data, uart, registers, hframe, -⟩ := chip.direct_frame location request
  rw [hframe] at hlocked hpage
  exact ⟨hguarded.of_locked hlocked, hfits.of_page hpage, hunlock⟩

/-- Outside the gate there is nothing to unlock. -/
theorem inStep_memory_of_not_covers {request : Memory.Request}
    (hcovers : gate.covers request.address = false) :
    InStep (Opened layout gate) (memory (layout.withGate (some gate)) request)
      (memory (layout.withGate none) request) := by
  rintro chip _ ⟨hguarded, hfits, rfl⟩
  -- The gate does nothing, and the lock lies within it.
  have hgated : ∀ found, (layout.withGate (some gate)).gate = some found →
      found.covers request.address = false :=
    fun _ h => Option.some.inj h ▸ hcovers
  have hleft := memory_of_not_covers (hfits.withGate (some gate)) hgated
  have hunlocked : layout.Fits chip.unlock := hfits.of_page rfl
  have hright := memory_withGate_none hunlocked request
  have hdirect := direct_of_not_covers layout hguarded hcovers
  rw [hleft, hright]
  simp only [Layout.locate_withGate, Layout.switches_withGate]
  rw [hdirect]
  exact .ok (.of_direct (layout.locate request.address) request hguarded hfits rfl rfl rfl)

/-- Inside the gate the bracket has the power on before the cycle starts. -/
theorem inStep_memory_of_covers (hregister : firstRegister ≤ gate.register)
    (hlimit : gate.limit ≤ layout.codeStart) {request : Memory.Request}
    (hcovers : gate.covers request.address = true) :
    InStep (Opened layout gate) (memory (layout.withGate (some gate)) request)
      (memory (layout.withGate none) request) := by
  rintro chip _ ⟨hguarded, hfits, rfl⟩
  have hlt : request.address < layout.codeStart :=
    UInt32.lt_of_lt_of_le (PowerGate.covers_iff.mp hcovers).2 hlimit
  have hsfr : ∀ index, layout.locate request.address ≠ .sfr index := Layout.locate_ne_sfr hlt
  have hpowered : layout.Fits
      (chip.setRegister gate.register (chip.register gate.register ||| gate.mask)) :=
    hfits.of_page rfl
  have hcycle := handle_cycle (hpowered.withGate (some gate)) request
  have hgated : (layout.withGate (some gate)).gate = some gate := rfl
  have hleft := handle_powered hgated hcovers hregister hcycle
  have hunlocked : layout.Fits chip.unlock := hfits.of_page rfl
  have hright := memory_withGate_none hunlocked request
  obtain ⟨hanswer, hstate⟩ := direct_of_powered hguarded hsfr (chip.register gate.register) request
  -- The direct way leaves the register as it was, so what is put back is what was there.
  have hkept : (chip.unlock.direct (layout.locate request.address) request).2.register
      gate.register = chip.register gate.register := by
    obtain ⟨data, uart, registers, hframe, hregisters⟩ :=
      chip.unlock.direct_frame (layout.locate request.address) request
    rw [hframe, hregisters hsfr]
    rfl
  rw [memory, Layout.access_eq, hleft, hright]
  simp only [Layout.locate_withGate, Layout.switches_withGate]
  rw [← hanswer]
  have hguarded' : (chip.setRegister gate.register
      (chip.register gate.register ||| gate.mask)).Guarded gate :=
    hguarded.of_locked rfl
  refine .ok (.of_direct (layout.locate request.address) request hguarded' hpowered rfl rfl ?_)
  show (((Chip.direct _ _ request).2.unlock).setRegister gate.register _).switched _ = _
  rw [hstate, ← hkept, setRegister_restore]

/-- The gate and the lock cancel out, whatever is accessed. -/
theorem inStep_memory_gate (hregister : firstRegister ≤ gate.register)
    (hlimit : gate.limit ≤ layout.codeStart) (request : Memory.Request) :
    InStep (Opened layout gate) (memory (layout.withGate (some gate)) request)
      (memory (layout.withGate none) request) := by
  cases hcovers : gate.covers request.address with
  | false => exact inStep_memory_of_not_covers hcovers
  | true => exact inStep_memory_of_covers hregister hlimit hcovers

/-- One access, behind the gate and without it. -/
theorem perform_opened (hregister : firstRegister ≤ gate.register)
    (hlimit : gate.limit ≤ layout.codeStart) {chip other : Chip} (h : Opened layout gate chip other)
    (access : Access) :
    ∃ answer next next', perform (layout.withGate (some gate)) access chip = .ok answer next ∧
      perform (layout.withGate none) access other = .ok answer next' ∧
      Opened layout gate next next' := by
  rw [perform_eq_handle, perform_eq_handle]
  obtain ⟨answer, next', hother⟩ := access.program_within.returns
    (fun request _ => memory_answers (layout.withGate none) request) other
  have hstep := InStep.handle (inStep_memory_gate hregister hlimit) access.program
  obtain ⟨next, hchip, hnext⟩ := hstep.returns h hother
  exact ⟨answer, next, next', hchip, hother, hnext⟩

theorem history_opened (hregister : firstRegister ≤ gate.register)
    (hlimit : gate.limit ≤ layout.codeStart) {chip : Chip}
    (h : Opened layout gate chip chip.unlock) (accesses : List Access) :
    ∃ entries last, history (layout.withGate (some gate)) accesses chip = .ok entries last ∧
      history (layout.withGate none) accesses chip.unlock =
        .ok (entries.map fun entry => (entry.1, entry.2.unlock)) last.unlock := by
  induction accesses generalizing chip with
  | nil => exact ⟨[], chip, rfl, rfl⟩
  | cons access rest ih =>
    obtain ⟨answer, next, next', hchip, hother, hnext⟩ := perform_opened hregister hlimit h access
    obtain rfl := hnext.unlock_eq
    obtain ⟨entries, last, hgated, hopen⟩ := ih hnext
    exact ⟨_, last, history_cons hchip hgated, history_cons hother hopen⟩

/-- **A locked chip behind its gate is a chip without the lock.** Every sequence of accesses has the
same answers on both, and after each access they differ in the lock alone: data, registers, UART
queues, code and page are the same. -/
theorem history_unlock {chip : Chip} {band : PowerGate}
    (hthreshold : layout.codeStart ≤ 0x1000000) (hpage : layout.paging = .unified → chip.page = 0)
    (hregister : 0x80 ≤ gate.register) (hlimit : gate.limit ≤ layout.codeStart)
    (hlocked : chip.locked = some band)
    (hwithin : ∀ address, band.covers address = true → gate.covers address = true)
    (hsame : band.register = gate.register) (hmask : band.mask &&& gate.mask ≠ 0)
    (accesses : List Access) :
    ∃ entries last, history (layout.withGate (some gate)) accesses chip = .ok entries last ∧
      history (layout.withGate none) accesses chip.unlock =
        .ok (entries.map fun entry => (entry.1, entry.2.unlock)) last.unlock := by
  have hguarded : chip.Guarded gate :=
    ⟨fun found hfound => Option.some.inj (hlocked ▸ hfound) ▸ ⟨hwithin, hsame, hmask⟩⟩
  exact history_opened hregister hlimit ⟨hguarded, ⟨hthreshold, hpage⟩, rfl⟩ accesses

/-- A word that straddles the edge of the band, and a write to the gate's own register. -/
theorem history_unlock_straddling :
    let gate : PowerGate := ⟨0x8000, 0x10000, 0x87, 0x01⟩
    let chip : Chip :=
      { page := 3
        locked := some ⟨0x8002, 0x9000, 0x87, 0x03⟩
        uart := some { base := 0x8010, received := [0x41, 0x42] } }
    let accesses : List Access :=
      [.writeWord 0x8000 0x04030201, .readWord 0x8000, .writeByte 0xc00087 0x40, .readByte 0x8002]
    ∃ entries last, history (Layout.banked.withGate (some gate)) accesses chip = .ok entries last ∧
      history (Layout.banked.withGate none) accesses chip.unlock =
        .ok (entries.map fun entry => (entry.1, entry.2.unlock)) last.unlock := by
  intro gate chip accesses
  have hregister : (0x80 : UInt8) ≤ 0x87 := by decide
  have hlimit : (0x10000 : UInt32) ≤ 0x400000 := by decide
  have hmask : (0x03 : UInt8) &&& 0x01 ≠ 0 := by decide
  have hwithin : ∀ address, PowerGate.covers ⟨0x8002, 0x9000, 0x87, 0x03⟩ address = true →
      gate.covers address = true := by
    intro address hcovers
    simp only [gate, PowerGate.covers, Bool.and_eq_true, decide_eq_true_iff] at hcovers ⊢
    exact ⟨UInt32.le_trans (by decide) hcovers.1, UInt32.lt_of_lt_of_le hcovers.2 (by decide)⟩
  have hlocked : chip.locked = some ⟨0x8002, 0x9000, 0x87, 0x03⟩ := rfl
  have hthreshold : Layout.banked.codeStart ≤ 0x1000000 := by decide
  have hpage : Layout.banked.paging = .unified → chip.page = 0 := nofun
  exact history_unlock hthreshold hpage hregister hlimit hlocked hwithin rfl hmask accesses

end Sim.Chip

end DebugMonitor
