import DebugMonitor.Proofs.Exchange
import DebugMonitor.Proofs.Memory.Bracket

/-!
# Accesses on the bus

A bus may answer anything, so nothing can be said of what an access finds there. What can be said is
which calls it makes, and what it does with the answers. This module spells out both for every
address: the cycle of an access (`Layout.Cycle`), the group of calls that it becomes where a power
gate stands before it (`Layout.Group`), and the bytes that make up a word (`Access.Bytewise`).

`returns_access_iff` says that the groups are all that an access to one byte can do, and
`accesses_on_bus` that a sequence of accesses is its groups one after the other.
-/

namespace DebugMonitor

namespace Memory

/-- A byte that was read. -/
@[match_pattern]
abbrev reading (address : UInt32) (value : UInt8) : Exchange Memory := ⟨.read address, value⟩

/-- A byte that was written. -/
@[match_pattern]
abbrev writing (address : UInt32) (value : UInt8) : Exchange Memory := ⟨.write address value, ()⟩

end Memory

open Memory (Access reading writing)

/-! ### Brackets -/

/-- What is read first is what the closing request is made from, whatever happens in between. -/
theorem Program.returns_bracket_iff {I : Interface} {α : Type} {first : I.Request}
    {opening closing : I.Answer first → I.Request} {p : Program I α} {log : List (Exchange I)}
    {a : α} :
    (do
      let saved ← ask first
      let _ ← ask (opening saved)
      let answer ← p
      let _ ← ask (closing saved)
      return answer : Program I α).Returns log a ↔
      ∃ saved opened inside closed, p.Returns inside a ∧
        log = [⟨first, saved⟩, ⟨opening saved, opened⟩] ++ inside ++ [⟨closing saved, closed⟩] := by
  constructor
  · intro h
    obtain ⟨saved, _, rfl, hopening⟩ := returns_ask_bind_iff.mp h
    obtain ⟨opened, _, rfl, hbody⟩ := returns_ask_bind_iff.mp hopening
    obtain ⟨inside, _, answer, rfl, hinside, hclosing⟩ := returns_bind_iff.mp hbody
    obtain ⟨closed, _, rfl, hreturn⟩ := returns_ask_bind_iff.mp hclosing
    obtain ⟨rfl, rfl⟩ := returns_pure_iff.mp hreturn
    exact ⟨saved, opened, inside, closed, hinside, rfl⟩
  · rintro ⟨saved, opened, inside, closed, hinside, rfl⟩
    refine returns_ask_bind_iff.mpr ⟨saved, _, rfl, ?_⟩
    refine returns_ask_bind_iff.mpr ⟨opened, _, rfl, ?_⟩
    refine returns_bind_iff.mpr ⟨inside, _, a, rfl, hinside, ?_⟩
    exact returns_ask_bind_iff.mpr ⟨closed, _, rfl, .done a⟩

namespace Layout

variable {layout : Layout} {byte : Exchange Memory} {calls : List (Exchange Bus)}

/-! ### Cycles -/

/-- The page of an address: its bits 16 to 23. -/
def pageOf (address : UInt32) : UInt8 := (address.toNat / 2 ^ 16 % 2 ^ 8).toUInt8

/-- The load or the store that an access makes in the window. -/
def inWindow : Exchange Memory → Exchange Bus
  | reading address value => ⟨.load (address.toNat % 2 ^ 16).toUInt16, value⟩
  | writing address value => ⟨.store (address.toNat % 2 ^ 16).toUInt16 value, ()⟩

/-- The call that an access makes to a side-band register. -/
def atRegister : Exchange Memory → Exchange Bus
  | reading address value => ⟨.register (address.toNat % 2 ^ 8).toUInt8, value⟩
  | writing address value => ⟨.setRegister (address.toNat % 2 ^ 8).toUInt8 value, ()⟩

/-- The calls for one byte, where no power gate is in the way. -/
inductive Cycle (layout : Layout) : Exchange Memory → List (Exchange Bus) → Prop where
  | paged {byte : Exchange Memory} (saved : UInt8) (data : byte.1.address < layout.codeStart)
      (paging : layout.paging = .banked) :
      Cycle layout byte
        [⟨.page, saved⟩, ⟨.setPage (pageOf byte.1.address), ()⟩, inWindow byte,
          ⟨.setPage saved, ()⟩]
  | firstPage {byte : Exchange Memory} (data : byte.1.address < layout.codeStart)
      (paging : layout.paging = .unified) (page : pageOf byte.1.address = 0) :
      Cycle layout byte [inWindow byte]
  | readBeyond {address : UInt32} (data : address < layout.codeStart)
      (paging : layout.paging = .unified) (page : pageOf address ≠ 0) :
      Cycle layout (reading address 0) []
  | writeBeyond {address : UInt32} {value : UInt8} (data : address < layout.codeStart)
      (paging : layout.paging = .unified) (page : pageOf address ≠ 0) :
      Cycle layout (writing address value) []
  | readCode {address : UInt32} (value : UInt8) (behind : layout.codeStart ≤ address)
      (code : address < layout.registerStart) :
      Cycle layout (reading address value) [⟨.code (address - layout.codeStart), value⟩]
  | writeCode {address : UInt32} {value : UInt8} (behind : layout.codeStart ≤ address)
      (code : address < layout.registerStart) : Cycle layout (writing address value) []
  | register {byte : Exchange Memory} (behind : layout.codeStart ≤ byte.1.address)
      (register : layout.registerStart ≤ byte.1.address) : Cycle layout byte [atRegister byte]

theorem toUInt8_shiftRight (address : UInt32) : (address >>> 16).toUInt8 = pageOf address := by
  rw [← UInt8.toNat_inj, UInt32.toNat_toUInt8, UInt32.toNat_shiftRight,
    show (16 : UInt32).toNat % 32 = 16 from rfl, Nat.shiftRight_eq_div_pow]
  exact (UInt8.toNat_ofNat_of_lt' (Nat.mod_lt _ (Nat.two_pow_pos 8))).symm

theorem toUInt16_eq (address : UInt32) :
    address.toUInt16 = (address.toNat % 2 ^ 16).toUInt16 := by
  rw [← UInt16.toNat_inj, UInt32.toNat_toUInt16]
  exact (UInt16.toNat_ofNat_of_lt' (Nat.mod_lt _ (Nat.two_pow_pos 16))).symm

theorem toUInt8_eq (address : UInt32) : address.toUInt8 = (address.toNat % 2 ^ 8).toUInt8 := by
  rw [← UInt8.toNat_inj, UInt32.toNat_toUInt8]
  exact (UInt8.toNat_ofNat_of_lt' (Nat.mod_lt _ (Nat.two_pow_pos 8))).symm

/-- Data goes to the page of its address. -/
theorem route_window {address : UInt32} (data : address < layout.codeStart)
    (page : ¬ (layout.paging = .unified ∧ pageOf address ≠ 0)) :
    layout.route address = .window (pageOf address) (address.toNat % 2 ^ 16).toUInt16 := by
  simp only [route, toUInt8_shiftRight]
  rw [if_pos data, if_neg page, toUInt16_eq]

/-- With unified addressing there is nothing beyond the first page. -/
theorem route_beyond {address : UInt32} (data : address < layout.codeStart)
    (paging : layout.paging = .unified) (page : pageOf address ≠ 0) :
    layout.route address = .nowhere := by
  simp only [route, toUInt8_shiftRight]
  rw [if_pos data, if_pos ⟨paging, page⟩]

/-- Code is counted from where it starts. -/
theorem route_code {address : UInt32} (behind : layout.codeStart ≤ address)
    (code : address < layout.registerStart) :
    layout.route address = .code (address - layout.codeStart) := by
  rw [route, if_neg (UInt32.not_lt.mpr behind), if_pos code]

/-- A register is known by the low byte of its address. -/
theorem route_register {address : UInt32} (behind : layout.codeStart ≤ address)
    (register : layout.registerStart ≤ address) :
    layout.route address = .register (address.toNat % 2 ^ 8).toUInt8 := by
  rw [route, if_neg (UInt32.not_lt.mpr behind), if_neg (UInt32.not_lt.mpr register), toUInt8_eq]

/-- A banked cycle stands between the calls that turn the page there and back. -/
theorem returns_paged_iff (hpaging : layout.paging = .banked) {α : Type} {page : UInt8}
    {cycle : Program Bus α} {a : α} :
    (layout.paged page cycle).Returns calls a ↔ ∃ (saved : UInt8) (inside : List (Exchange Bus)),
      cycle.Returns inside a ∧
        calls = [⟨.page, saved⟩, ⟨.setPage page, ()⟩] ++ inside ++ [⟨.setPage saved, ()⟩] := by
  have hbracket : layout.paged page cycle = (do
      let saved ← Program.ask (I := Bus) .page
      let _ ← Program.ask (I := Bus) (.setPage page)
      let answer ← cycle
      let _ ← Program.ask (I := Bus) (.setPage saved)
      return answer) := by
    rw [paged, hpaging]
    rfl
  rw [hbracket, Program.returns_bracket_iff]
  constructor
  · rintro ⟨saved, ⟨⟩, inside, ⟨⟩, hinside, rfl⟩
    exact ⟨saved, inside, hinside, rfl⟩
  · rintro ⟨saved, inside, hinside, rfl⟩
    exact ⟨saved, (), inside, (), hinside, rfl⟩

theorem cycle_read (address : UInt32) {route : Route} (h : layout.route address = route) :
    layout.cycle (.read address) = layout.readCycle route := by rw [cycle, h]

theorem cycle_write (address : UInt32) (value : UInt8) {route : Route}
    (h : layout.route address = route) :
    layout.cycle (.write address value) = layout.writeCycle value route := by rw [cycle, h]

/-- An access in the window is one load or store, with the page bracket around it if the window
moves. -/
theorem returns_window_iff {page : UInt8}
    (hroute : layout.route byte.1.address =
      .window page (byte.1.address.toNat % 2 ^ 16).toUInt16) :
    (layout.cycle byte.1).Returns calls byte.2 ↔
      (layout.paging = .unified ∧ calls = [inWindow byte]) ∨
      (layout.paging = .banked ∧ ∃ saved, calls =
        [⟨.page, saved⟩, ⟨.setPage page, ()⟩, inWindow byte, ⟨.setPage saved, ()⟩]) := by
  -- Inside the bracket a read and a write make one call each, so they are told as one.
  have hcycle : ∃ cycle : Program Bus byte.1.Answer, layout.cycle byte.1 = layout.paged page cycle ∧
      ∀ inside, cycle.Returns inside byte.2 ↔ inside = [inWindow byte] := by
    obtain ⟨request, answer⟩ := byte
    cases request with
    | read address =>
      exact ⟨Bus.load _, cycle_read address hroute, fun _ => Program.returns_ask_iff⟩
    | write address value =>
      exact ⟨Bus.store _ value, cycle_write address value hroute, fun _ => Program.returns_ask_iff⟩
  obtain ⟨cycle, hprogram, hreturns⟩ := hcycle
  rw [hprogram]
  cases hpaging : layout.paging with
  | unified => simp only [paged, hpaging, hreturns]; simp
  | banked =>
    rw [returns_paged_iff hpaging]
    simp [hreturns]

theorem returns_register_iff (behind : layout.codeStart ≤ byte.1.address)
    (register : layout.registerStart ≤ byte.1.address) :
    (layout.cycle byte.1).Returns calls byte.2 ↔ calls = [atRegister byte] := by
  have hroute := route_register behind register
  obtain ⟨request, answer⟩ := byte
  cases request with
  | read address =>
    rw [cycle_read address hroute]
    exact Program.returns_ask_iff
  | write address value =>
    rw [cycle_write address value hroute]
    exact Program.returns_ask_iff

/-- **The cycle of an access**, for every answer of the bus. -/
theorem returns_cycle_iff :
    (layout.cycle byte.1).Returns calls byte.2 ↔ layout.Cycle byte calls := by
  constructor
  · intro h
    -- The thresholds of the layout decide, in the order of the route.
    by_cases hdata : byte.1.address < layout.codeStart
    · by_cases hbeyond : layout.paging = .unified ∧ pageOf byte.1.address ≠ 0
      · have hroute := route_beyond hdata hbeyond.1 hbeyond.2
        obtain ⟨request, answer⟩ := byte
        cases request with
        | read address =>
          rw [cycle_read address hroute] at h
          obtain ⟨rfl, rfl⟩ := Program.returns_pure_iff.mp h
          exact .readBeyond hdata hbeyond.1 hbeyond.2
        | write address value =>
          rw [cycle_write address value hroute] at h
          obtain ⟨rfl, rfl⟩ := Program.returns_pure_iff.mp h
          exact .writeBeyond hdata hbeyond.1 hbeyond.2
      · rcases (returns_window_iff (route_window hdata hbeyond)).mp h with
          ⟨hunified, rfl⟩ | ⟨hbanked, saved, rfl⟩
        · exact .firstPage hdata hunified (not_not.mp fun hpage => hbeyond ⟨hunified, hpage⟩)
        · exact .paged saved hdata hbanked
    · have hbehind := UInt32.not_lt.mp hdata
      by_cases hcode : byte.1.address < layout.registerStart
      · have hroute := route_code hbehind hcode
        obtain ⟨request, answer⟩ := byte
        cases request with
        | read address =>
          rw [cycle_read address hroute] at h
          obtain rfl := Program.returns_ask_iff.mp h
          exact .readCode answer hbehind hcode
        | write address value =>
          rw [cycle_write address value hroute] at h
          obtain ⟨rfl, rfl⟩ := Program.returns_pure_iff.mp h
          exact .writeCode hbehind hcode
      · have hregister := UInt32.not_lt.mp hcode
        obtain rfl := (returns_register_iff hbehind hregister).mp h
        exact .register hbehind hregister
  · intro h
    -- Each rule gives the route, and the route gives the cycle.
    cases h with
    | paged saved data paging =>
      have hpage : ¬ (layout.paging = .unified ∧ pageOf byte.1.address ≠ 0) := by simp [paging]
      exact (returns_window_iff (route_window data hpage)).mpr (.inr ⟨paging, saved, rfl⟩)
    | firstPage data paging page =>
      have hpage : ¬ (layout.paging = .unified ∧ pageOf byte.1.address ≠ 0) := fun h => h.2 page
      exact (returns_window_iff (route_window data hpage)).mpr (.inl ⟨paging, rfl⟩)
    | readBeyond data paging page =>
      rw [cycle_read _ (route_beyond data paging page)]
      exact .done _
    | writeBeyond data paging page =>
      rw [cycle_write _ _ (route_beyond data paging page)]
      exact .done _
    | readCode answer behind code =>
      rw [cycle_read _ (route_code behind code)]
      exact Program.returns_ask_iff.mpr rfl
    | writeCode behind code =>
      rw [cycle_write _ _ (route_code behind code)]
      exact .done _
    | register behind register => exact (returns_register_iff behind register).mpr rfl

/-! ### Groups -/

/-- The calls for one byte, with the power bracket around them where a gate stands before it. -/
inductive Group (layout : Layout) (byte : Exchange Memory) : List (Exchange Bus) → Prop where
  | plain {cycle : List (Exchange Bus)}
      (uncovered : ∀ gate ∈ layout.gate,
        ¬ (gate.first ≤ byte.1.address ∧ byte.1.address < gate.limit))
      (calls : layout.Cycle byte cycle) : Group layout byte cycle
  | gated {gate : PowerGate} {cycle : List (Exchange Bus)} (saved : UInt8)
      (gates : gate ∈ layout.gate)
      (covered : gate.first ≤ byte.1.address ∧ byte.1.address < gate.limit)
      (calls : layout.Cycle byte cycle) :
      Group layout byte
        ([⟨.register gate.register, saved⟩,
          ⟨.setRegister gate.register (saved ||| gate.mask), ()⟩] ++ cycle ++
          [⟨.setRegister gate.register saved, ()⟩])

theorem powered_eq_self {α : Type} {address : UInt32}
    (uncovered : ∀ gate ∈ layout.gate, ¬ (gate.first ≤ address ∧ address < gate.limit))
    (cycle : Program Bus α) : layout.powered address cycle = cycle := by
  apply Sim.Chip.powered_of_not_covers
  intro gate hgate
  rw [← Bool.not_eq_true, PowerGate.covers_iff]
  exact uncovered gate hgate

theorem returns_powered_iff {gate : PowerGate} (hgate : gate ∈ layout.gate) {address : UInt32}
    (covered : gate.first ≤ address ∧ address < gate.limit) {α : Type} {cycle : Program Bus α}
    {a : α} :
    (layout.powered address cycle).Returns calls a ↔
      ∃ (saved : UInt8) (inside : List (Exchange Bus)), cycle.Returns inside a ∧
        calls = [⟨.register gate.register, saved⟩,
          ⟨.setRegister gate.register (saved ||| gate.mask), ()⟩] ++ inside ++
            [⟨.setRegister gate.register saved, ()⟩] := by
  have hbracket : layout.powered address cycle = (do
      let saved ← Program.ask (I := Bus) (.register gate.register)
      let _ ← Program.ask (I := Bus) (.setRegister gate.register (saved ||| gate.mask))
      let answer ← cycle
      let _ ← Program.ask (I := Bus) (.setRegister gate.register saved)
      return answer) := by
    rw [powered, filter_covers_eq_some hgate (PowerGate.covers_iff.mpr covered)]
    rfl
  rw [hbracket, Program.returns_bracket_iff]
  constructor
  · rintro ⟨saved, ⟨⟩, inside, ⟨⟩, hinside, rfl⟩
    exact ⟨saved, inside, hinside, rfl⟩
  · rintro ⟨saved, inside, hinside, rfl⟩
    exact ⟨saved, (), inside, (), hinside, rfl⟩

/-- **The group of an access to one byte**, for every answer of the bus. -/
theorem returns_access_iff :
    (layout.access byte.1).Returns calls byte.2 ↔ layout.Group byte calls := by
  rw [access_eq]
  constructor
  · intro h
    by_cases hcovered : ∃ gate ∈ layout.gate,
        gate.first ≤ byte.1.address ∧ byte.1.address < gate.limit
    · obtain ⟨gate, hgate, hcovered⟩ := hcovered
      obtain ⟨saved, inside, hinside, rfl⟩ := (returns_powered_iff hgate hcovered).mp h
      exact .gated saved hgate hcovered (returns_cycle_iff.mp hinside)
    · have huncovered : ∀ gate ∈ layout.gate,
          ¬ (gate.first ≤ byte.1.address ∧ byte.1.address < gate.limit) :=
        fun gate hgate hcovered' => hcovered ⟨gate, hgate, hcovered'⟩
      rw [powered_eq_self huncovered] at h
      exact .plain huncovered (returns_cycle_iff.mp h)
  · intro h
    cases h with
    | plain uncovered hcycle =>
      rw [powered_eq_self uncovered]
      exact returns_cycle_iff.mpr hcycle
    | gated saved hgate covered hcycle =>
      exact (returns_powered_iff hgate covered).mpr ⟨saved, _, returns_cycle_iff.mpr hcycle, rfl⟩

/-- Only a write stores. -/
theorem Cycle.eq_write_of_store {offset : UInt16} {value : UInt8} (h : layout.Cycle byte calls)
    (hstore : ⟨.store offset value, ()⟩ ∈ calls) : byte.1 = .write byte.1.address value := by
  have hwindow : ⟨.store offset value, ()⟩ = inWindow byte →
      byte.1 = .write byte.1.address value := by
    match byte with
    | reading _ _ => exact nofun
    | writing _ _ => rintro ⟨⟩; rfl
  cases h with
  | paged | firstPage => exact hwindow (by simpa using hstore)
  | readBeyond | writeBeyond | writeCode => exact absurd hstore List.not_mem_nil
  | readCode => simp at hstore
  | register =>
    match byte with
    | reading _ _ => simp [atRegister] at hstore
    | writing _ _ => simp [atRegister] at hstore

/-- Only a write stores anything, and it stores its own value. -/
theorem Group.eq_write_of_store {offset : UInt16} {value : UInt8} (h : layout.Group byte calls)
    (hstore : ⟨.store offset value, ()⟩ ∈ calls) : byte.1 = .write byte.1.address value := by
  cases h with
  | plain _ hcycle => exact hcycle.eq_write_of_store hstore
  | gated saved _ _ hcycle =>
    simp only [List.mem_append] at hstore
    rcases hstore with (hopening | hinside) | hclosing
    · simp at hopening
    · exact hcycle.eq_write_of_store hinside
    · simp at hclosing

end Layout

/-! ### A page register

On a bus with a page register, an access puts the register back as it found it. -/

/-- A part of the state is a page register: it is what was written last, it is what is read, and
nothing else touches it. -/
structure Bus.HoldsPage {σ : Type} (bus : Handler Bus (EStateM Stop σ)) (page : σ → UInt8) :
    Prop where
  answer_eq : ∀ {s t : σ} {answer : UInt8}, bus .page s = .ok answer t → answer = page s
  page_set : ∀ {s t : σ} {value : UInt8}, bus (.setPage value) s = .ok () t → page t = value
  page_kept : ∀ {request : Bus.Request} {s t : σ} {answer : request.Answer},
    (∀ value, request ≠ .setPage value) → bus request s = .ok answer t → page t = page s

/-- The simulated chip holds its page between calls that set it. -/
theorem Sim.Chip.holdsPage : Bus.HoldsPage Sim.Chip.bus Sim.Chip.page where
  answer_eq h := by
    cases h
    rfl
  page_set h := by
    cases h
    rfl
  page_kept {request chip after answer} hset h := by
    cases request with
    -- Calls that answer and change nothing.
    | page | code | register => cases h; rfl
    | setPage value => exact absurd rfl (hset value)
    | load offset =>
      cases h
      obtain ⟨uart, hframe⟩ := chip.load_frame (chip.physical offset)
      show (chip.load (chip.physical offset)).2.page = chip.page
      rw [hframe]
    | store offset value =>
      cases h
      obtain ⟨data, uart, hframe⟩ := chip.store_frame (chip.physical offset) value
      show (chip.store (chip.physical offset) value).page = chip.page
      rw [hframe]
    | setRegister index value =>
      cases h
      obtain ⟨registers, hframe⟩ := chip.writeRegister_frame index value
      show (chip.writeRegister index value).page = chip.page
      rw [hframe]
    | halt => exact answer.elim

/-- Wherever the program returns, the page is what it was. -/
def Bus.KeepsPage {σ α : Type} (bus : Handler Bus (EStateM Stop σ)) (page : σ → UInt8)
    (p : Program Bus α) : Prop :=
  ∀ ⦃s a t⦄, p.handle bus s = .ok a t → page t = page s

namespace Bus.KeepsPage

variable {σ α β : Type} {bus : Handler Bus (EStateM Stop σ)} {page : σ → UInt8} {layout : Layout}

theorem pure (a : α) : KeepsPage bus page (Pure.pure a : Program Bus α) := by
  intro s b t h
  cases h
  rfl

theorem bind {p : Program Bus α} {f : α → Program Bus β} (hp : KeepsPage bus page p)
    (hf : ∀ a, KeepsPage bus page (f a)) : KeepsPage bus page (p >>= f) := by
  intro s b t h
  obtain ⟨a, middle, hfirst, hrest⟩ := Program.handle_bind_eq_ok h
  exact (hf a hrest).trans (hp hfirst)

theorem ask (hbus : HoldsPage bus page) {request : Bus.Request}
    (h : ∀ value, request ≠ .setPage value) : KeepsPage bus page (Bus.ask request) := by
  intro s a t hask
  rw [Bus.ask, Program.handle_ask] at hask
  exact hbus.page_kept h hask

/-- The window moves, and moves back to where it was. -/
theorem paged (hbus : HoldsPage bus page) (number : UInt8) {cycle : Program Bus α}
    (h : KeepsPage bus page cycle) : KeepsPage bus page (layout.paged number cycle) := by
  unfold Layout.paged
  cases layout.paging with
  | unified => exact h
  | banked =>
    intro s a t hrun
    obtain ⟨saved, s₁, hsaved, hrun₁⟩ := Program.handle_bind_eq_ok hrun
    obtain ⟨⟨⟩, s₂, -, hrun₂⟩ := Program.handle_bind_eq_ok hrun₁
    obtain ⟨answer, s₃, -, hrun₃⟩ := Program.handle_bind_eq_ok hrun₂
    obtain ⟨⟨⟩, s₄, hrestored, hrun₄⟩ := Program.handle_bind_eq_ok hrun₃
    cases hrun₄
    rw [Bus.page, Bus.ask, Program.handle_ask] at hsaved
    rw [Bus.setPage, Bus.ask, Program.handle_ask] at hrestored
    rw [hbus.page_set hrestored, hbus.answer_eq hsaved]

theorem powered (hbus : HoldsPage bus page) (address : UInt32) {cycle : Program Bus α}
    (h : KeepsPage bus page cycle) : KeepsPage bus page (layout.powered address cycle) := by
  unfold Layout.powered
  cases layout.gate.filter (·.covers address) with
  | none => exact h
  | some gate =>
    refine bind (ask hbus nofun) fun saved => bind (ask hbus nofun) fun _ => ?_
    exact bind h fun answer => bind (ask hbus nofun) fun _ => .pure answer

/-- Every access leaves the page as it was. -/
theorem access (hbus : HoldsPage bus page) (request : Memory.Request) :
    KeepsPage bus page (layout.access request) := by
  cases request with
  | read address =>
    refine powered hbus address ?_
    cases layout.route address with
    | window number offset => exact paged hbus number (ask hbus nofun)
    | nowhere => exact .pure _
    | code offset => exact ask hbus nofun
    | register index => exact ask hbus nofun
  | write address value =>
    refine powered hbus address ?_
    cases layout.route address with
    | window number offset => exact paged hbus number (ask hbus nofun)
    | nowhere => exact .pure _
    | code offset => exact .pure _
    | register index => exact ask hbus nofun

/-- Between accesses the page register holds what its owner put there, on any bus that has one. -/
theorem lower (hbus : HoldsPage bus page) (p : Program Memory α) :
    KeepsPage bus page (layout.lower p) := by
  induction p with
  | done a => exact .pure a
  | stalled => exact nofun
  | call request next ih => exact (access hbus request).bind ih

end Bus.KeepsPage

/-! ### Accesses in a row -/

/-- The bytes of an access: one, or the four of a word, in ascending order from an address that
wraps round. -/
inductive Memory.Access.Bytewise : Access × Access.Answer → List (Exchange Memory) → Prop where
  | readByte (address : UInt32) (value : UInt8) :
      Bytewise (.readByte address, .byte value) [reading address value]
  | writeByte (address : UInt32) (value : UInt8) :
      Bytewise (.writeByte address value, .done) [writing address value]
  | readWord (address : UInt32) (b₀ b₁ b₂ b₃ : UInt8) :
      Bytewise (.readWord address, .word (Word.ofBytes [b₀, b₁, b₂, b₃]))
        [reading address b₀, reading (address + 1) b₁, reading (address + 2) b₂,
          reading (address + 3) b₃]
  | writeWord (address value : UInt32) :
      Bytewise (.writeWord address value, .done)
        [writing address value.toUInt8, writing (address + 1) (value >>> 8).toUInt8,
          writing (address + 2) (value >>> 16).toUInt8,
          writing (address + 3) (value >>> 24).toUInt8]

namespace Memory

/-- Bytes are read one by one, by ascending addresses. -/
theorem eq_of_returns_readBytes {address : UInt32} {count : Nat} {bytes : List (Exchange Memory)}
    {values : Bytes} (h : (readBytes address count).Returns bytes values) :
    values.length = count ∧
      bytes = values.mapIdx fun i value => reading (address + i.toUInt32) value := by
  induction count generalizing address bytes values with
  | zero =>
    obtain ⟨rfl, rfl⟩ := Program.returns_pure_iff.mp h
    exact ⟨rfl, rfl⟩
  | succ count ih =>
    obtain ⟨value, _, rfl, hrest⟩ := Program.returns_ask_bind_iff.mp h
    obtain ⟨bytes, _, values, rfl, hreturns, hpure⟩ := Program.returns_bind_iff.mp hrest
    obtain ⟨rfl, rfl⟩ := Program.returns_pure_iff.mp hpure
    obtain ⟨rfl, rfl⟩ := ih hreturns
    refine ⟨rfl, ?_⟩
    simp only [List.mapIdx_cons, add_zero_offset, add_succ_offset, List.append_nil]

/-- Bytes are written one by one, by ascending addresses. -/
theorem eq_of_returns_writeBytes {address : UInt32} {values : Bytes}
    {bytes : List (Exchange Memory)} (h : (writeBytes address values).Returns bytes ()) :
    bytes = values.mapIdx fun i value => writing (address + i.toUInt32) value := by
  induction values generalizing address bytes with
  | nil => exact (Program.returns_pure_iff.mp h).1
  | cons value values ih =>
    obtain ⟨⟨⟩, _, rfl, hrest⟩ := Program.returns_ask_bind_iff.mp h
    obtain rfl := ih hrest
    simp only [List.mapIdx_cons, add_zero_offset, add_succ_offset]

/-- Four bytes in a row. -/
theorem mapIdx_word {α : Type} (make : UInt32 → UInt8 → α) (address : UInt32)
    (b₀ b₁ b₂ b₃ : UInt8) :
    [b₀, b₁, b₂, b₃].mapIdx (fun i value => make (address + i.toUInt32) value) =
      [make address b₀, make (address + 1) b₁, make (address + 2) b₂, make (address + 3) b₃] := by
  simp only [List.mapIdx_cons, List.mapIdx_nil, add_zero_offset]
  rfl

theorem Access.bytewise_of_returns {access : Access} {answer : Access.Answer}
    {bytes : List (Exchange Memory)} (h : access.program.Returns bytes answer) :
    Access.Bytewise (access, answer) bytes := by
  cases access with
  | readByte address =>
    obtain ⟨value, _, rfl, hreturn⟩ := Program.returns_ask_bind_iff.mp h
    obtain ⟨rfl, rfl⟩ := Program.returns_pure_iff.mp hreturn
    exact .readByte address value
  | writeByte address value =>
    obtain ⟨⟨⟩, _, rfl, hreturn⟩ := Program.returns_ask_bind_iff.mp h
    obtain ⟨rfl, rfl⟩ := Program.returns_pure_iff.mp hreturn
    exact .writeByte address value
  -- A word that is read consists of the four bytes that were, whatever they are.
  | readWord address =>
    obtain ⟨_, _, word, rfl, hword, hreturn⟩ := Program.returns_bind_iff.mp h
    obtain ⟨rfl, rfl⟩ := Program.returns_pure_iff.mp hreturn
    obtain ⟨_, _, values, rfl, hvalues, hjoined⟩ := Program.returns_bind_iff.mp hword
    obtain ⟨rfl, rfl⟩ := Program.returns_pure_iff.mp hjoined
    obtain ⟨hlength, rfl⟩ := eq_of_returns_readBytes hvalues
    match values, hlength with
    | [b₀, b₁, b₂, b₃], _ =>
      rw [List.append_nil, List.append_nil, mapIdx_word reading]
      exact .readWord address b₀ b₁ b₂ b₃
  | writeWord address value =>
    obtain ⟨_, _, ⟨⟩, rfl, hword, hreturn⟩ := Program.returns_bind_iff.mp h
    obtain ⟨rfl, rfl⟩ := Program.returns_pure_iff.mp hreturn
    obtain rfl := eq_of_returns_writeBytes hword
    rw [List.append_nil, Word.toBytes, mapIdx_word writing]
    exact .writeWord address value

end Memory

/-- On the bus a run on the memory is made of one group for each byte. -/
theorem Layout.lower_groups {α σ : Type} {layout : Layout} {bus : Handler Bus (EStateM Stop σ)}
    {p : Program Memory α} {a : α} {s t : σ} (h : (layout.lower p).handle bus s = .ok a t) :
    ∃ groups : List (List (Exchange Bus)),
      List.Forall₂ layout.Group
        (p.transcript (fun request => (layout.access request).handle bus) s) groups ∧
      (layout.lower p).transcript bus s = groups.flatten ∧
      (layout.lower p).trace bus s = groups.flatten.map Sigma.fst := by
  obtain ⟨groups, hgroups, htranscript⟩ := Program.transcript_handle h
  refine ⟨groups, hgroups.imp fun byte group => Layout.returns_access_iff.mp, htranscript, ?_⟩
  exact (Program.trace_of_ok h).trans (congrArg (List.map Sigma.fst) htranscript)

/-- **Accesses on the bus.** Whatever the bus answers, accesses in a row call it for each of their
bytes in turn: the group of the first byte, then that of the next one, and nothing else. Only in the
group of a write something is stored. -/
theorem accesses_on_bus {σ : Type} (layout : Layout) {bus : Handler Bus (EStateM Stop σ)}
    (answers : ∀ request, Bus.IsCycle request → ∀ s, ∃ answer t, bus request s = .ok answer t)
    (accesses : List Access) (s : σ) :
    let program := layout.lower (accesses.mapM Access.program)
    ∃ (entries : List (Access × Access.Answer)) (chunks : List (List (Exchange Memory)))
      (groups : List (List (Exchange Bus))) (t : σ),
      entries.map Prod.fst = accesses ∧
      program.handle bus s = .ok (entries.map Prod.snd) t ∧
      program.trace bus s = groups.flatten.map Sigma.fst ∧
      program.transcript bus s = groups.flatten ∧
      List.Forall₂ Access.Bytewise entries chunks ∧
      List.Forall₂ (fun byte group => layout.Group byte group ∧
        ∀ offset value, ⟨.store offset value, ()⟩ ∈ group → byte.1 = .write byte.1.address value)
        chunks.flatten groups := by
  intro program
  have hwithin : program.Within Bus.IsCycle :=
    Program.Within.handle (fun request _ => Layout.access_within request)
      (Program.Within.mapM Access.program_within accesses)
  obtain ⟨results, t, hrun⟩ := hwithin.returns answers s
  obtain ⟨groups, hgroups, htranscript, htrace⟩ := Layout.lower_groups hrun
  have hmemory := (congrFun (Program.handle_handle layout.access bus _) s).symm.trans hrun
  obtain ⟨entries, chunks, hentries, rfl, hchunks, hbytes⟩ :=
    Program.entries_of_returns_mapM (Program.returns_transcript hmemory)
  rw [hbytes] at hgroups
  refine ⟨entries, chunks, groups, t, hentries, hrun, htrace, htranscript, ?_, ?_⟩
  · exact hchunks.imp fun entry chunk => Access.bytewise_of_returns
  · exact hgroups.imp fun byte group h => ⟨h, fun offset value => h.eq_write_of_store⟩

/-- A word of which the upper half lies behind a gate. -/
theorem accesses_on_bus_straddling :
    let layout : Layout := { Layout.banked with gate := some ⟨0x8000, 0x10000, 0x87, 0x01⟩ }
    let chip : Sim.Chip := { page := 3 }
    let program := layout.lower ([Access.readWord 0x7ffe].mapM Access.program)
    program.trace Sim.Chip.bus chip =
        [.page, .setPage 0, .load 0x7ffe, .setPage 3, .page, .setPage 0, .load 0x7fff, .setPage 3,
          .register 0x87, .setRegister 0x87 0x01, .page, .setPage 0, .load 0x8000, .setPage 3,
          .setRegister 0x87 0x00,
          .register 0x87, .setRegister 0x87 0x01, .page, .setPage 0, .load 0x8001, .setPage 3,
          .setRegister 0x87 0x00] ∧
    ∃ (entries : List (Access × Access.Answer)) (chunks : List (List (Exchange Memory)))
      (groups : List (List (Exchange Bus))) (t : Sim.Chip),
      entries.map Prod.fst = [Access.readWord 0x7ffe] ∧
      program.handle Sim.Chip.bus chip = .ok (entries.map Prod.snd) t ∧
      program.trace Sim.Chip.bus chip = groups.flatten.map Sigma.fst ∧
      program.transcript Sim.Chip.bus chip = groups.flatten ∧
      List.Forall₂ Access.Bytewise entries chunks ∧
      List.Forall₂ (fun byte group => layout.Group byte group ∧
        ∀ offset value, ⟨.store offset value, ()⟩ ∈ group → byte.1 = .write byte.1.address value)
        chunks.flatten groups := by
  intro layout chip program
  exact ⟨by decide, accesses_on_bus layout Sim.Chip.bus_answers [.readWord 0x7ffe] chip⟩

end DebugMonitor
