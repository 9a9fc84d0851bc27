import DebugMonitor.Bulk.Session
import DebugMonitor.Proofs.PrefixCode
import DebugMonitor.Proofs.Word

/-!
# What the host sends in bulk mode

A stream in bulk mode consists of items: requests, exits, and bytes that mean nothing. This module
says how each of them is spelled and what it is good for, one access after the other. The addresses
of a block count from its first one, and wrap round.

No item is the beginning of another. The first byte tells which kind of item it is, every kind but
one has a fixed length, and a block to write has its length in front.
-/

namespace DebugMonitor

namespace Memory

/-- Reads a block, byte by byte. -/
def readEach (address : UInt32) (count : Nat) : Program Memory Bytes :=
  (List.range count).mapM fun i => read (address + i.toUInt32)

/-- Writes a block, byte by byte. -/
def writeEach (address : UInt32) (bytes : Bytes) : Program Memory Unit :=
  forM bytes.zipIdx fun (b, i) => write (address + i.toUInt32) b

/-- A block can be written one byte longer. -/
theorem writeEach_concat (address : UInt32) (bytes : Bytes) (b : UInt8) :
    writeEach address (bytes ++ [b]) =
      (writeEach address bytes >>= fun _ => write (address + bytes.length.toUInt32) b) := by
  rw [writeEach, writeEach, List.zipIdx_append, List.forM_append]
  simp

end Memory

namespace Bulk

/-- The bytes that start a request, and the one that ends bulk mode. -/
def opcodes : Bytes :=
  ['\r'.toUInt8, 'R'.toUInt8, 'W'.toUInt8, 'r'.toUInt8, 'w'.toUInt8]

/-- A request of the host with all of its bytes, the byte that ends the session, or a byte between
two requests that is no opcode. -/
inductive Item where
  | exit
  | filler (b : UInt8) (h : b ∉ opcodes)
  | readWord (address : UInt32)
  | writeWord (address value : UInt32)
  | readBlock (address length : UInt32)
  | writeBlock (address : UInt32) (data : Bytes) (h : data.length < 2 ^ 32)

namespace Item

def encode : Item → Bytes
  | exit => ['\r'.toUInt8]
  | filler b _ => [b]
  | readWord address => 'R'.toUInt8 :: Word.toBytes address
  | writeWord address value => 'W'.toUInt8 :: (Word.toBytes address ++ Word.toBytes value)
  | readBlock address length => 'r'.toUInt8 :: (Word.toBytes address ++ Word.toBytes length)
  | writeBlock address data _ =>
    'w'.toUInt8 :: (Word.toBytes address ++ (Word.toBytes data.length.toUInt32 ++ data))

/-- What an item does to the memory, and the bytes sent back for it. -/
def serve : Item → Program Memory Bytes
  | exit => pure []
  | filler _ _ => pure []
  | readWord address => do return Word.toBytes (← Memory.readWord address)
  | writeWord address value => do
    Memory.writeWord address value
    return []
  | readBlock address length => Memory.readEach address length.toNat
  | writeBlock address data _ => do
    Memory.writeEach address data
    return []

/-- The answers to the bytes of an item. -/
def flows : Item → List Flow
  | exit => [.exit]
  | item => item.encode.map fun _ => .more

/-- No byte of any other request leaves bulk mode. -/
theorem flows_of_ne_exit {item : Item} (h : item ≠ .exit) :
    item.flows = item.encode.map fun _ => .more := by
  cases item with
  | exit => exact absurd rfl h
  | _ => rfl

/-- The byte that completes an exit leaves bulk mode, and no byte that completes another item. -/
theorem last_flow {item : Item} {start : Bytes} {b : UInt8} {flow : Flow}
    (hencode : item.encode = start ++ [b])
    (hflow : item.flows = start.map (fun _ => .more) ++ [flow]) :
    (item = .exit ∧ flow = .exit) ∨ (item ≠ .exit ∧ flow = .more) := by
  by_cases hexit : item = .exit
  · subst hexit
    have hlast : [] ++ [Flow.exit] = start.map (fun _ => .more) ++ [flow] := hflow
    exact .inl ⟨rfl, (List.singleton_inj.mp (List.append_inj_right' hlast rfl)).symm⟩
  · rw [flows_of_ne_exit hexit, hencode, List.map_append] at hflow
    exact .inr ⟨hexit, (List.singleton_inj.mp (List.append_cancel_left hflow)).symm⟩

/-! ### Spelling -/

/-- The opcode an item starts with. -/
def opcode? : Item → Option Opcode
  | exit => some .exit
  | filler _ _ => none
  | readWord _ => some (.transfer (.word .read))
  | writeWord _ _ => some (.transfer (.word .write))
  | readBlock _ _ => some (.transfer (.block .read))
  | writeBlock _ _ _ => some (.transfer (.block .write))

/-- The bytes that are skipped between two requests are those that are no opcode. -/
theorem ofByte?_eq_none_iff (b : UInt8) : Opcode.ofByte? b = none ↔ b ∉ opcodes := by
  simp only [Opcode.ofByte?, opcodes, List.mem_cons, List.not_mem_nil, or_false, not_or]
  grind

/-- The first byte of an item tells its kind. -/
theorem exists_encode_eq (item : Item) :
    ∃ b body, item.encode = b :: body ∧ Opcode.ofByte? b = item.opcode? := by
  cases item with
  | exit => exact ⟨_, _, rfl, rfl⟩
  | filler b h => exact ⟨_, _, rfl, (ofByte?_eq_none_iff b).mpr h⟩
  | readWord => exact ⟨_, _, rfl, rfl⟩
  | writeWord => exact ⟨_, _, rfl, rfl⟩
  | readBlock => exact ⟨_, _, rfl, rfl⟩
  | writeBlock => exact ⟨_, _, rfl, rfl⟩

/-- The first byte of an item tells its kind. -/
theorem opcode?_eq {item other : Item} (h : item.encode <+: other.encode) :
    item.opcode? = other.opcode? := by
  obtain ⟨b, body, hitem, hb⟩ := item.exists_encode_eq
  obtain ⟨c, rest, hother, hc⟩ := other.exists_encode_eq
  rw [hitem, hother, List.cons_prefix_cons] at h
  rw [← hb, ← hc, h.1]

/-- Words are spelled in four bytes, so they can be compared one by one. -/
theorem toBytes_append_cancel {word other : UInt32} {s t : Bytes}
    (h : Word.toBytes word ++ s <+: Word.toBytes other ++ t) : word = other ∧ s <+: t := by
  obtain ⟨rest, hrest⟩ := h
  rw [List.append_assoc] at hrest
  obtain ⟨hword, htail⟩ := List.append_inj hrest rfl
  exact ⟨by rw [← Word.ofBytes_toBytes word, hword, Word.ofBytes_toBytes], rest, htail⟩

theorem toBytes_cancel {word other : UInt32} (h : Word.toBytes word <+: Word.toBytes other) :
    word = other :=
  (toBytes_append_cancel (s := []) (t := []) (by simpa using h)).1

/-- The host need not say where an item ends: no item begins another one. -/
theorem encode_prefixFree {item other : Item} (h : item.encode <+: other.encode) :
    item = other := by
  have hopcode := opcode?_eq h
  cases item with
  | exit =>
    cases other with
    | exit => rfl
    | _ => cases hopcode
  | filler b hb =>
    cases other with
    | filler c hc =>
      obtain rfl : b = c := (List.cons_prefix_cons.mp h).1
      rfl
    | _ => cases hopcode
  | readWord address =>
    cases other with
    | readWord other =>
      obtain rfl := toBytes_cancel (List.cons_prefix_cons.mp h).2
      rfl
    | _ => cases hopcode
  | writeWord address value =>
    cases other with
    | writeWord other written =>
      obtain ⟨rfl, hvalue⟩ := toBytes_append_cancel (List.cons_prefix_cons.mp h).2
      obtain rfl := toBytes_cancel hvalue
      rfl
    | _ => cases hopcode
  | readBlock address length =>
    cases other with
    | readBlock other count =>
      obtain ⟨rfl, hlength⟩ := toBytes_append_cancel (List.cons_prefix_cons.mp h).2
      obtain rfl := toBytes_cancel hlength
      rfl
    | _ => cases hopcode
  | writeBlock address data hdata =>
    cases other with
    | writeBlock other written hwritten =>
      obtain ⟨rfl, hrest⟩ := toBytes_append_cancel (List.cons_prefix_cons.mp h).2
      -- The length in front is that of the data, so data that begins other data is all of it.
      obtain ⟨hcount, hbegins⟩ := toBytes_append_cancel hrest
      have hlength : data.length = written.length := by
        have hmod : data.length % 2 ^ 32 = written.length % 2 ^ 32 := congrArg UInt32.toNat hcount
        rwa [Nat.mod_eq_of_lt hdata, Nat.mod_eq_of_lt hwritten] at hmod
      obtain rfl := hbegins.eq_of_length hlength
      rfl
    | _ => cases hopcode

end Item

end Bulk

end DebugMonitor
