import DebugMonitor.Proofs.Memory.Location
import DebugMonitor.Proofs.Station.BulkServing
import DebugMonitor.Proofs.Station.Step

/-!
# What a bulk session touches

A request names the bytes that it is about, and the session accesses no others: a word where it
lies, a block from its first address on, both wrapping round at the end of all addresses. The data
of a block is written while the request is still coming, so this is shown byte by byte: whatever the
session does about a byte, it touches only what the item does that the byte is part of
(`Awaits.touches`).
-/

namespace DebugMonitor

variable {α : Type}

/-! ### Regions -/

/-- A program on the memory that accesses nothing outside a region. -/
abbrev Memory.Inside (region : UInt32 → Prop) (p : Program Memory α) : Prop :=
  p.Within fun request : Memory.Request => region request.address

/-- What the request accesses, if it does, lies in a region. -/
def Console.Request.Stays (region : UInt32 → Prop) (request : Console.Request) : Prop :=
  ∀ access ∈ request.memory?, region access.address

/-- A program that accesses nothing outside a region. -/
abbrev Touching (region : UInt32 → Prop) (p : Program Console α) : Prop :=
  p.Within (Console.Request.Stays region)

variable {region : UInt32 → Prop} {address : UInt32}

/-- The block behind the first address is the block that starts one address later. -/
theorem Memory.forall_offset_succ {count : Nat}
    (h : ∀ i < count + 1, region (address + i.toUInt32)) :
    region address ∧ ∀ i < count, region (address + 1 + i.toUInt32) := by
  refine ⟨Memory.add_zero_offset address ▸ h 0 count.succ_pos, fun i hi => ?_⟩
  rw [← Memory.add_succ_offset]
  exact h (i + 1) (Nat.succ_lt_succ hi)

namespace Memory.Inside

theorem readBytes {count : Nat} (h : ∀ i < count, region (address + i.toUInt32)) :
    Inside region (Memory.readBytes address count) := by
  induction count generalizing address with
  | zero => trivial
  | succ count ih =>
    obtain ⟨hfirst, hrest⟩ := forall_offset_succ h
    exact .bind (.ask hfirst) fun _ => .bind (ih hrest) fun _ => .pure _

theorem writeBytes {bytes : Bytes} (h : ∀ i < bytes.length, region (address + i.toUInt32)) :
    Inside region (Memory.writeBytes address bytes) := by
  induction bytes generalizing address with
  | nil => trivial
  | cons b rest ih =>
    obtain ⟨hfirst, hrest⟩ := forall_offset_succ h
    exact .bind (.ask hfirst) fun _ => ih hrest

end Memory.Inside

/-! ### Blocks that are sent -/

namespace Touching

theorem memory {p : Program Memory α} (hp : Memory.Inside region p) :
    Touching region (Console.memory p) := by
  refine Program.Within.memory ?_ hp
  intro request hregion access haccess
  exact Option.some.inj haccess ▸ hregion

theorem sendAll (bytes : Bytes) : Touching region (Console.sendAll bytes) :=
  Program.Within.sendAll (fun _ => nofun) bytes

open Bulk.Session

theorem sendWord (h : ∀ i < 4, region (address + i.toUInt32)) :
    Touching region (sendWord address) :=
  .bind (memory (.bind (Memory.Inside.readBytes h) fun _ => .pure _)) fun _ => sendAll _

theorem sendWords {count : Nat} (h : ∀ i < 4 * count, region (address + i.toUInt32)) :
    Touching region (sendWords address count) := by
  induction count generalizing address with
  | zero => trivial
  | succ count ih =>
    refine .bind (sendWord fun i hi => h i (by omega)) fun _ => ih fun i hi => ?_
    have hshift : address + 4 + i.toUInt32 = address + (4 + i).toUInt32 :=
      (Word.add_offset address 4 i).symm
    rw [hshift]
    exact h (4 + i) (by omega)

theorem sendBytes {count : Nat} (h : ∀ i < count, region (address + i.toUInt32)) :
    Touching region (sendBytes address count) := by
  induction count generalizing address with
  | zero => trivial
  | succ count ih =>
    obtain ⟨hfirst, hrest⟩ := Memory.forall_offset_succ h
    exact .bind (memory (.ask hfirst)) fun b => .bind (.ask nofun) fun _ => ih hrest

/-- A block is touched in its bytes, by words or not. -/
theorem sendBlock (byWords : Bool) {length : Nat}
    (h : ∀ i < length, region (address + i.toUInt32)) :
    Touching region (sendBlock byWords address length) := by
  have hwords : 4 * (if byWords then length / 4 else 0) ≤ length := by
    cases byWords with
    | true => exact Nat.mul_div_le length 4
    | false => exact Nat.zero_le length
  rw [Bulk.Session.sendBlock]
  generalize (if byWords then length / 4 else 0) = words at hwords
  refine .bind (sendWords fun i hi => h i (by omega)) fun _ => sendBytes fun i hi => ?_
  rw [← Word.add_offset]
  exact h (4 * words + i) (by omega)

end Touching

/-! ### Items -/

namespace Bulk

open Session (next)

/-- The bytes that an item is about. -/
def Item.Touches : Item → UInt32 → Prop
  | exit, _ | filler _ _, _ => False
  | readWord start, address | writeWord start _, address =>
    ∃ i : Nat, i < 4 ∧ address = start + i.toUInt32
  | readBlock start length, address =>
    ∃ i : Nat, i < length.toNat ∧ address = start + i.toUInt32
  | writeBlock start data _, address =>
    ∃ i : Nat, i < data.length ∧ address = start + i.toUInt32

/-- **A session touches what its items are about.** -/
theorem Awaits.touches (byWords : Bool) {state : State} {start : Bytes} (h : Awaits state start)
    {b : UInt8} {item : Item} (hitem : start ++ [b] <+: item.encode) :
    Touching item.Touches (next byWords b state) := by
  cases h with
  | idle =>
    rw [next]
    split <;> trivial
  | @address transfer got hgot =>
    rcases Field.push_cases hgot b with ⟨-, hfield⟩ | ⟨word, hword, hbytes⟩
    · simp only [next, hfield]
      trivial
    · simp only [next, hword]
      cases transfer with
      | block direction => trivial
      | word direction =>
        cases direction with
        | write => trivial
        | read =>
          have hencode : (Item.readWord word).encode <+: item.encode := by
            rw [Item.encode, ← hbytes]
            exact hitem
          obtain rfl := Item.encode_prefixFree hencode
          exact .bind (Touching.sendWord fun i hi => ⟨i, hi, rfl⟩) fun _ => .pure _
  | @value address got hgot =>
    rcases Field.push_cases hgot b with ⟨-, hfield⟩ | ⟨word, hword, hbytes⟩
    · simp only [next, hfield]
      trivial
    · have hencode : (Item.writeWord address word).encode <+: item.encode := by
        rw [Item.encode, ← hbytes, ← List.append_assoc]
        exact hitem
      obtain rfl := Item.encode_prefixFree hencode
      simp only [next, hword]
      have hwrite : Memory.Inside (Item.writeWord address word).Touches
          (Memory.writeWord address word) :=
        Memory.Inside.writeBytes fun i hi => ⟨i, hi, rfl⟩
      exact .bind (Touching.memory hwrite) fun _ => .pure _
  | @length direction address got hgot =>
    rcases Field.push_cases hgot b with ⟨-, hfield⟩ | ⟨word, hword, hbytes⟩
    · simp only [next, hfield]
      trivial
    · simp only [next, hword]
      cases direction with
      | read =>
        have hencode : (Item.readBlock address word).encode <+: item.encode := by
          rw [Item.encode, ← hbytes, ← List.append_assoc]
          exact hitem
        obtain rfl := Item.encode_prefixFree hencode
        exact .bind (Touching.sendBlock byWords fun i hi => ⟨i, hi, rfl⟩) fun _ => .pure _
      | write => trivial
  | @data address length data hdata =>
    -- The byte belongs to the data of a block, so the item is the block.
    obtain ⟨c, body, hfirst, hopcode⟩ := item.exists_encode_eq
    rw [hfirst, List.cons_append, List.cons_prefix_cons] at hitem
    obtain ⟨rfl, hbody⟩ := hitem
    cases item with
    | writeBlock start block hblock =>
      rw [Item.encode, List.cons.injEq] at hfirst
      obtain ⟨-, rfl⟩ := hfirst
      rw [List.append_assoc, List.append_assoc] at hbody
      obtain ⟨rfl, hrest⟩ := Item.toBytes_append_cancel hbody
      obtain ⟨-, hblocks⟩ := Item.toBytes_append_cancel hrest
      have hlength := hblocks.length_le
      rw [List.length_append, List.length_singleton] at hlength
      exact .bind (Touching.memory (.ask ⟨data.length, hlength, rfl⟩)) fun _ => .pure _
    | _ => cases hopcode

end Bulk

end DebugMonitor
