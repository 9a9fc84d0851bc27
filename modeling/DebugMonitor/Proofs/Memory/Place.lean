import DebugMonitor.Memory.Region
import DebugMonitor.Proofs.Memory.BusCycles

/-!
# Regions and places

The console names an address by its region, and an access to the address goes to a place of the
chip: the data window, code space or the side-band registers, or nowhere. The names and the places
are told apart by different functions, which have nothing in common but their thresholds. So that
they agree is something to prove: `goesTo_iff` says where accesses go, and `region_iff_goesTo` that
the region can be told from it.

The calls of the brackets are none of the cycle. Those of the page bracket go to the page register,
which is no place; those of the power bracket are counted apart (`Layout.bracketed`).
-/

namespace DebugMonitor

open Memory (reading writing)

/-- The kinds of places that a call can go to. -/
inductive Place where
  | window
  | code
  | registers
  deriving DecidableEq, Repr

/-- Where on the chip a call goes. The page register is nowhere. -/
def Bus.Request.place? : Bus.Request → Option Place
  | load _ | store _ _ => some .window
  | code _ => some .code
  | register _ | setRegister _ _ => some .registers
  | page | setPage _ | halt => none

namespace Layout

/-- The places of an access with those of its power bracket, if there is one. -/
def bracketed (layout : Layout) (address : UInt32) (places : List Place) : List Place :=
  if (layout.gate.filter (·.covers address)).isSome then
    [.registers, .registers] ++ places ++ [.registers]
  else places

/-- An access goes to these places, whatever the bus answers. -/
def GoesTo (layout : Layout) (request : Memory.Request) (places : List Place) : Prop :=
  ∀ log answer, (layout.access request).Returns log answer →
    log.filterMap (·.1.place?) = layout.bracketed request.address places

/-- The places along a route. -/
def places : Memory.Request → Route → List Place
  | _, .window _ _ => [.window]
  | _, .nowhere => []
  | .read _, .code _ => [.code]
  | .write _ _, .code _ => []
  | _, .register _ => [.registers]

variable {layout : Layout} {request : Memory.Request} {byte : Exchange Memory}
  {calls : List (Exchange Bus)}

/-! ### Where accesses go -/

theorem places_window (request : Memory.Request) (page : UInt8) (offset : UInt16) :
    places request (.window page offset) = [.window] := by
  cases request <;> rfl

theorem places_register (request : Memory.Request) (index : UInt8) :
    places request (.register index) = [.registers] := by
  cases request <;> rfl

/-- The calls of a cycle go to the places of its route. -/
theorem Cycle.filterMap_place? (h : layout.Cycle byte calls) :
    calls.filterMap (·.1.place?) = places byte.1 (layout.route byte.1.address) := by
  -- The calls that turn the page go nowhere, and one call at most is left.
  cases h with
  | paged saved data paging =>
    rw [route_window data (by simp [paging]), places_window]
    match byte with
    | reading _ _ => rfl
    | writing _ _ => rfl
  | firstPage data paging page =>
    rw [route_window data (fun h => h.2 page), places_window]
    match byte with
    | reading _ _ => rfl
    | writing _ _ => rfl
  | readBeyond data paging page =>
    rw [Memory.Request.address, route_beyond data paging page]
    rfl
  | writeBeyond data paging page =>
    rw [Memory.Request.address, route_beyond data paging page]
    rfl
  | readCode value behind code =>
    rw [Memory.Request.address, route_code behind code]
    rfl
  | writeCode behind code =>
    rw [Memory.Request.address, route_code behind code]
    rfl
  | register behind register =>
    rw [route_register behind register, places_register]
    match byte with
    | reading _ _ => rfl
    | writing _ _ => rfl

/-- With the calls of the gate around them. -/
theorem Group.filterMap_place? (h : layout.Group byte calls) :
    calls.filterMap (·.1.place?) =
      layout.bracketed byte.1.address (places byte.1 (layout.route byte.1.address)) := by
  cases h with
  | plain uncovered hcycle =>
    have hcovers : ∀ gate, layout.gate = some gate → gate.covers byte.1.address = false :=
      fun gate hgate => Bool.eq_false_iff.mpr (mt PowerGate.covers_iff.mp (uncovered gate hgate))
    rw [bracketed, filter_covers_eq_none hcovers]
    exact hcycle.filterMap_place?
  | @gated gate cycle saved gates covered hcycle =>
    rw [bracketed, filter_covers_eq_some gates (PowerGate.covers_iff.mpr covered),
      ← hcycle.filterMap_place?, List.filterMap_append, List.filterMap_append]
    rfl

/-- Every access can be answered. -/
theorem exists_returns_access (layout : Layout) (request : Memory.Request) :
    ∃ log answer, (layout.access request).Returns log answer := by
  obtain ⟨answer, after, hrun⟩ := Sim.Chip.memory_answers layout request {}
  exact ⟨_, answer, Program.returns_transcript hrun⟩

theorem bracketed_inj {address : UInt32} {places others : List Place}
    (h : layout.bracketed address places = layout.bracketed address others) : places = others := by
  simp only [bracketed] at h
  split at h
  · simpa using h
  · exact h

/-- An access goes along the route of its address, and nowhere else. -/
theorem goesTo_iff {expected : List Place} :
    layout.GoesTo request expected ↔ places request (layout.route request.address) = expected := by
  constructor
  · intro h
    obtain ⟨log, answer, hlog⟩ := layout.exists_returns_access request
    have hgroup : layout.Group ⟨request, answer⟩ log := returns_access_iff.mp hlog
    exact bracketed_inj (hgroup.filterMap_place?.symm.trans (h log answer hlog))
  · rintro rfl log answer hlog
    have hgroup : layout.Group ⟨request, answer⟩ log := returns_access_iff.mp hlog
    exact hgroup.filterMap_place?

end Layout

/-! ### Regions by their thresholds -/

namespace Region

theorem ofAddress_data_iff {address : UInt32} :
    (ofAddress address = xdata ∨ ofAddress address = idata ∨ ofAddress address = pdata) ↔
      address < 0x400000 := by
  grind [ofAddress]

theorem ofAddress_code_iff {address : UInt32} :
    ofAddress address = code ↔ 0x400000 ≤ address ∧ address < 0xc00000 := by
  grind [ofAddress]

theorem ofAddress_sfr_iff {address : UInt32} : ofAddress address = sfr ↔ 0xc00000 ≤ address := by
  grind [ofAddress]

end Region

/-! ### What a region says about an access -/

namespace Layout

/-- Reads of an address go to the first places, and writes to the second. -/
def AccessGoesTo (layout : Layout) (address : UInt32) (read written : List Place) : Prop :=
  layout.GoesTo (.read address) read ∧ ∀ value, layout.GoesTo (.write address value) written

/-- Data is in the window, unless it is beyond a window that never moves. -/
def dataPlaces (paging : Paging) (address : UInt32) : List Place :=
  if paging = .unified ∧ 0x10000 ≤ address then [] else [.window]

/-- Where an access goes is told by its route. -/
theorem accessGoesTo_iff {layout : Layout} {address : UInt32} {read written : List Place} :
    layout.AccessGoesTo address read written ↔
      places (.read address) (layout.route address) = read ∧
        places (.write address 0) (layout.route address) = written := by
  have hvalue (value : UInt8) : places (.write address value) (layout.route address) =
      places (.write address 0) (layout.route address) := by
    cases layout.route address <;> rfl
  simp only [AccessGoesTo, goesTo_iff, Memory.Request.address, hvalue, forall_const]

variable {paging : Paging} {gate : Option PowerGate} {address : UInt32}

/-- Data goes to the window, or nowhere. -/
theorem places_data (h : address < 0x400000) (request : Memory.Request) :
    places request (({ banked with paging, gate } : Layout).route address) =
      dataPlaces paging address := by
  have hpage : pageOf address ≠ 0 ↔ 0x10000 ≤ address := by
    rw [← toUInt8_shiftRight, Ne, page_eq_zero_iff (UInt32.lt_trans h (by decide)),
      UInt32.not_lt]
  simp only [dataPlaces, ← hpage]
  by_cases hbeyond : paging = .unified ∧ pageOf address ≠ 0
  · rw [if_pos hbeyond, route_beyond h hbeyond.1 hbeyond.2]
    cases request <;> rfl
  · rw [if_neg hbeyond, route_window h hbeyond, places_window]

/-- Where the thresholds are those of the chips, whatever gate there is. -/
theorem accessGoesTo_banked_iff {read written : List Place} :
    ({ banked with paging, gate } : Layout).AccessGoesTo address read written ↔
      (read, written) =
        if address < 0x400000 then (dataPlaces paging address, dataPlaces paging address)
        else if address < 0xc00000 then ([.code], [])
        else ([.registers], [.registers]) := by
  rw [accessGoesTo_iff]
  by_cases hdata : address < 0x400000
  · rw [places_data hdata, places_data hdata, if_pos hdata, Prod.mk.injEq, eq_comm,
      eq_comm (a := written)]
  · have hbehind := UInt32.not_lt.mp hdata
    rw [if_neg hdata]
    by_cases hcode : address < 0xc00000
    · rw [if_pos hcode, route_code hbehind hcode, Prod.mk.injEq, eq_comm,
        eq_comm (a := written)]
      rfl
    · rw [if_neg hcode, route_register hbehind (UInt32.not_lt.mp hcode), Prod.mk.injEq, eq_comm,
        eq_comm (a := written)]
      rfl

/-- **The region of an address says where accesses go,** and where accesses go says the region. -/
theorem region_iff_goesTo (paging : Paging) (gate : Option PowerGate) (address : UInt32) :
    let layout : Layout := { banked with paging, gate }
    let region := Region.ofAddress address
    let data := dataPlaces paging address
    (region = .xdata ∨ region = .idata ∨ region = .pdata ↔ layout.AccessGoesTo address data data) ∧
    (region = .code ↔ layout.AccessGoesTo address [.code] []) ∧
    (region = .sfr ↔ layout.AccessGoesTo address [.registers] [.registers]) := by
  intro layout region data
  have hdata : data = [] ∨ data = [.window] := by
    simp only [data, dataPlaces]
    split
    · exact .inl rfl
    · exact .inr rfl
  simp only [layout, region, accessGoesTo_banked_iff, Region.ofAddress_data_iff,
    Region.ofAddress_code_iff, Region.ofAddress_sfr_iff]
  grind

end Layout

end DebugMonitor
