import DebugMonitor.Proofs.Memory.Location
import DebugMonitor.Proofs.Word
import Mathlib.Logic.Function.Basic

/-!
# The flat memory as a flat store

A chip without a UART and without a locked band is an array of bytes indexed by location, and all
that pages, routes and registers do is lost in `Layout.locate`. `history_flat` says so of every
sequence of accesses to bytes and words: each answer is that of the flat store, and after each
access the chip holds the bytes that the flat store holds.

The relation that carries the proof is `Shows`. One access to a byte keeps it (`inStep_memory`), so
every program on the flat memory does, and a word is a program of four such accesses.
-/

namespace DebugMonitor

open Memory (Access)
open Sim

/-- A byte for every location. Void has none: it reads as zero. -/
abbrev FlatStore := Location → UInt8

namespace FlatStore

def get (store : FlatStore) : Location → UInt8
  | .void => 0
  | location => store location

/-- Void and code keep what they have. -/
def set (store : FlatStore) (value : UInt8) : Location → FlatStore
  | .void | .code _ => store
  | location => Function.update store location value

/-- The byte that an address stands for. -/
def byteAt (layout : Layout) (store : FlatStore) (address : UInt32) : UInt8 :=
  store.get (layout.locate address)

def setByte (layout : Layout) (store : FlatStore) (address : UInt32) (value : UInt8) : FlatStore :=
  store.set value (layout.locate address)

/-- The digit of weight `256 ^ i` lies at `address + i`. -/
def getWord (layout : Layout) (store : FlatStore) (address : UInt32) : UInt32 :=
  let digit (i : Nat) : Nat := (store.byteAt layout (address + i.toUInt32)).toNat
  (Nat.ofDigits 256 ((List.range 4).map digit)).toUInt32

def setWord (layout : Layout) (store : FlatStore) (address value : UInt32) : FlatStore :=
  let digit (i : Nat) : UInt8 := (value.toNat / 256 ^ i).toUInt8
  (List.range 4).foldl (fun store i => store.setByte layout (address + i.toUInt32) (digit i)) store

def perform (layout : Layout) (store : FlatStore) : Access → Access.Answer × FlatStore
  | .readByte address => (.byte (store.byteAt layout address), store)
  | .writeByte address value => (.done, store.setByte layout address value)
  | .readWord address => (.word (store.getWord layout address), store)
  | .writeWord address value => (.done, store.setWord layout address value)

/-- What each access answers and leaves behind. -/
def history (layout : Layout) (store : FlatStore) : List Access → List (Access.Answer × FlatStore)
  | [] => []
  | access :: rest =>
    let entry := store.perform layout access
    entry :: history layout entry.2 rest

/-- The flat store as a memory of its own. -/
def memory (layout : Layout) : Handler Memory (EStateM Stop FlatStore)
  | .read address => fun store => .ok (store.byteAt layout address) store
  | .write address value => fun store => .ok () (store.setByte layout address value)

/-! ### Words on a flat store

Four accesses to bytes in a row, at addresses that wrap round. -/

variable {layout : Layout}

theorem handle_readBytes (store : FlatStore) (address : UInt32) (count : Nat) :
    (Memory.readBytes address count).handle (memory layout) store =
      .ok ((List.range count).map fun i => store.byteAt layout (address + i.toUInt32)) store := by
  induction count generalizing address with
  | zero => rfl
  | succ count ih =>
    rw [Memory.readBytes]
    rw [Program.handle_bind_ok (a := store.byteAt layout address) (t := store) rfl]
    rw [Program.handle_bind_ok (ih (address + 1))]
    rw [List.range_succ_eq_map, List.map_cons, List.map_map, Memory.add_zero_offset]
    simp only [Function.comp_def, Nat.succ_eq_add_one, Memory.add_succ_offset]
    rfl

theorem handle_readWord (store : FlatStore) (address : UInt32) :
    (Memory.readWord address).handle (memory layout) store =
      .ok (store.getWord layout address) store := by
  rw [Memory.readWord, Program.handle_bind_ok (handle_readBytes store address 4)]
  have hlength : ((List.range 4).map fun i =>
      store.byteAt layout (address + i.toUInt32)).length ≤ 4 := by
    simp
  have hword := Word.toNat_ofBytes hlength
  rw [List.map_map] at hword
  show EStateM.Result.ok (Word.ofBytes _) store = .ok (Nat.ofDigits 256 _).toUInt32 store
  rw [← UInt32.ofNat_toNat (x := Word.ofBytes _), hword]
  rfl

theorem handle_writeBytes (store : FlatStore) (address : UInt32) (count : Nat)
    (byte : Nat → UInt8) :
    (Memory.writeBytes address ((List.range count).map byte)).handle (memory layout) store =
      .ok () ((List.range count).foldl
        (fun store i => store.setByte layout (address + i.toUInt32) (byte i)) store) := by
  induction count generalizing store address byte with
  | zero => rfl
  | succ count ih =>
    rw [List.range_succ_eq_map, List.map_cons, List.map_map, Memory.writeBytes]
    rw [Program.handle_bind_ok (a := ()) (t := store.setByte layout address (byte 0)) rfl]
    rw [ih, List.foldl_cons, List.foldl_map, Memory.add_zero_offset]
    simp only [Function.comp_def, Nat.succ_eq_add_one, Memory.add_succ_offset]

theorem handle_writeWord (store : FlatStore) (address value : UInt32) :
    (Memory.writeWord address value).handle (memory layout) store =
      .ok () (store.setWord layout address value) := by
  rw [Memory.writeWord, Word.toBytes_eq_map, handle_writeBytes]
  rfl

/-- Programs on the flat store do what the flat store is said to do. -/
theorem handle_access (store : FlatStore) (access : Access) :
    access.program.handle (memory layout) store =
      .ok (store.perform layout access).1 (store.perform layout access).2 := by
  cases access with
  | readByte address => rfl
  | writeByte address value => rfl
  | readWord address =>
    rw [Access.program, Program.handle_bind_ok (handle_readWord store address)]
    rfl
  | writeWord address value =>
    rw [Access.program, Program.handle_bind_ok (handle_writeWord store address value)]
    rfl

end FlatStore

/-! ### The bytes of a chip -/

namespace Sim.Chip

/-- What a chip holds: its data bytes, of which those never written are zero, its code image, zero
past its end, and all its registers. -/
def flat (chip : Chip) : FlatStore
  | .data address => chip.peek address
  | .void => 0
  | .code offset => chip.code.get offset.toNat
  | .sfr index => chip.register index

/-- A chip that shows the bytes of a flat store, with the page and the code image of another. -/
structure Shows (layout : Layout) (first chip : Chip) (store : FlatStore) : Prop where
  flat_eq : chip.flat = store
  uart_eq : chip.uart = none
  locked_eq : chip.locked = none
  fits : layout.Fits chip
  page_eq : chip.page = first.page
  code_eq : chip.code = first.code

variable {layout : Layout} {first : Chip}

/-- A chip with neither UART nor lock shows itself. -/
theorem shows_flat {chip : Chip} (huart : chip.uart = none) (hlocked : chip.locked = none)
    (hfits : layout.Fits chip) : Shows layout chip chip chip.flat where
  flat_eq := rfl
  uart_eq := huart
  locked_eq := hlocked
  fits := hfits
  page_eq := rfl
  code_eq := rfl

namespace Shows

variable {chip : Chip} {store : FlatStore}

/-- The chip reads what the store holds. -/
theorem readAt_eq (h : Shows layout first chip store) (location : Location) :
    chip.readAt location = (store.get location, chip) := by
  rw [← h.flat_eq]
  cases location with
  | data address => exact load_of_plain h.uart_eq h.locked_eq address
  | void => rfl
  | code offset => rfl
  | sfr index => rfl

theorem flat_writeAt (h : Shows layout first chip store) (value : UInt8) (location : Location) :
    (chip.writeAt value location).flat = store.set value location := by
  rw [← h.flat_eq]
  cases location with
  | void => rfl
  | code offset => rfl
  | data written =>
    show (chip.store written value).flat = Function.update chip.flat (.data written) value
    rw [store_of_plain h.uart_eq h.locked_eq]
    funext location
    rw [Function.update_apply]
    -- Only a location of the same kind could have changed.
    cases location with
    | data address =>
      show (chip.poke written value).peek address = _
      rw [peek_poke]
      simp only [Location.data.injEq, eq_comm]
      rfl
    | void => rfl
    | code offset => rfl
    | sfr index => rfl
  | sfr written =>
    show (chip.setRegister written value).flat = Function.update chip.flat (.sfr written) value
    funext location
    rw [Function.update_apply]
    cases location with
    | data address => rfl
    | void => rfl
    | code offset => rfl
    | sfr index =>
      show (chip.setRegister written value).register index = _
      rw [register_setRegister]
      simp only [Location.sfr.injEq, eq_comm]
      rfl

/-- The chip still shows the store when both were written. -/
theorem writeAt (h : Shows layout first chip store) (value : UInt8) (location : Location) :
    Shows layout first (chip.writeAt value location) (store.set value location) := by
  have hflat := h.flat_writeAt value location
  cases location with
  | data address =>
    have hstore : chip.writeAt value (.data address) = chip.poke address value :=
      store_of_plain h.uart_eq h.locked_eq address value
    rw [hstore] at hflat ⊢
    exact { h with flat_eq := hflat, fits := h.fits.of_page rfl }
  | void => exact { h with flat_eq := hflat }
  | code offset => exact { h with flat_eq := hflat }
  | sfr index => exact { h with flat_eq := hflat, fits := h.fits.of_page rfl }

theorem switched (h : Shows layout first chip store) (count : Nat) :
    Shows layout first (chip.switched count) store :=
  { h with flat_eq := h.flat_eq, fits := h.fits.of_page rfl }

end Shows

/-! ### Accesses

One access to a byte keeps the relation, so every program does. -/

/-- Every access does the same on the chip and on the store it shows. -/
theorem inStep_memory (hgate : layout.gate = none) (first : Chip) (request : Memory.Request) :
    InStep (Shows layout first) (memory layout request) (FlatStore.memory layout request) := by
  intro chip store h
  have hungated : ∀ gate, layout.gate = some gate → gate.covers request.address = false := by
    intro gate hsome
    rw [hgate] at hsome
    cases hsome
  rw [memory_of_not_covers h.fits hungated]
  cases request with
  | read address =>
    rw [direct, h.readAt_eq]
    exact .ok (h.switched _)
  | write address value => exact .ok ((h.writeAt value _).switched _)

/-- An access to the chip is that access to the flat store. -/
theorem perform_shows (hgate : layout.gate = none) {chip : Chip} {store : FlatStore}
    (h : Shows layout first chip store) (access : Access) :
    ∃ next, perform layout access chip = .ok (store.perform layout access).1 next ∧
      Shows layout first next (store.perform layout access).2 := by
  rw [perform_eq_handle]
  have hstep := InStep.handle (inStep_memory hgate first) access.program
  exact hstep.returns h (FlatStore.handle_access store access)

/-- So does every list of accesses, entry by entry. -/
theorem history_shows (hgate : layout.gate = none) {chip : Chip} {store : FlatStore}
    (h : Shows layout first chip store) (accesses : List Access) :
    ∃ entries last, history layout accesses chip = .ok entries last ∧
      entries.map (fun entry => (entry.1, entry.2.flat)) = store.history layout accesses ∧
      ∀ entry ∈ entries, entry.2.page = first.page ∧ entry.2.code = first.code := by
  induction accesses generalizing chip store with
  | nil => exact ⟨[], chip, rfl, rfl, by simp⟩
  | cons access rest ih =>
    obtain ⟨next, hperform, hnext⟩ := perform_shows hgate h access
    obtain ⟨entries, last, hrest, hentries, hkept⟩ := ih hnext
    refine ⟨_, last, history_cons hperform hrest, ?_, ?_⟩
    · rw [List.map_cons, hentries, hnext.flat_eq]
      rfl
    · intro entry hentry
      rcases List.mem_cons.mp hentry with rfl | hlater
      · exact ⟨hnext.page_eq, hnext.code_eq⟩
      · exact hkept entry hlater

/-- **The paged chip refines the flat store.** With no gate, no UART and no lock, whatever the page
register holds where there is one, every access of every sequence answers as on the flat store, and
leaves the bytes that the flat store then has. Page and code image never change. -/
theorem history_flat {chip : Chip} (hthreshold : layout.codeStart ≤ 0x1000000)
    (hgate : layout.gate = none) (huart : chip.uart = none) (hlocked : chip.locked = none)
    (hpage : layout.paging = .unified → chip.page = 0) (accesses : List Access) :
    ∃ entries last, history layout accesses chip = .ok entries last ∧
      entries.map (fun entry => (entry.1, entry.2.flat)) = chip.flat.history layout accesses ∧
      ∀ entry ∈ entries, entry.2.page = chip.page ∧ entry.2.code = chip.code :=
  history_shows hgate (shows_flat huart hlocked ⟨hthreshold, hpage⟩) accesses

/-- Words across the end of data and across the first mapped register, and one that wraps round. -/
theorem history_flat_straddling :
    let chip : Chip := { page := 7, code := Cells.empty.set 0 0x99 }
    let accesses : List Access :=
      [.writeWord 0x3ffffe 0x04030201, .readWord 0x3ffffe, .writeWord 0xc0007e 0x04030201,
        .readWord 0xffff7f, .readWord 0xfffffffe]
    (chip.flat.history Layout.banked accesses).map Prod.fst =
        [.done, .word 0x00990201, .done, .word 0x00040300, .word 0] ∧
      ∃ entries last, history Layout.banked accesses chip = .ok entries last ∧
        entries.map (fun entry => (entry.1, entry.2.flat)) =
          chip.flat.history Layout.banked accesses ∧
        ∀ entry ∈ entries, entry.2.page = chip.page ∧ entry.2.code = chip.code :=
  ⟨by decide, history_flat (by decide) rfl rfl rfl (by decide) _⟩

end Sim.Chip

end DebugMonitor
