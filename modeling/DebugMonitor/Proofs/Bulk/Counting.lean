import DebugMonitor.Proofs.Bulk.Serving
import DebugMonitor.Proofs.Console.OnBus

/-!
# Blocks counted in a word

A block can be as long as a word can say, so the offset that runs through it is a word as well, and
there is no room for a step beyond the end. Here the offset is counted just so: what is left of the
block is a difference that is refused if it is negative, and a step is refused if it leads past the
end of the block, let alone round to zero. None of this ever happens (`sendCounted_eq`), and whether
the block goes by words or by bytes cannot be told from the bus (`sendBlock_calls`).
-/

namespace DebugMonitor

namespace Bulk.Session

/-! ### Counting -/

/-- What is left of a block behind an offset. -/
def left? (length offset : UInt32) : Option UInt32 :=
  if offset ≤ length then some (length - offset) else none

/-- The offset after so many more bytes of a block. -/
def advance? (length offset count : UInt32) : Option UInt32 :=
  if offset.toNat + count.toNat ≤ length.toNat then some (offset + count) else none

/-- Sends words while a whole one is left, and returns the offset behind them. -/
def countWords (address length : UInt32) : Nat → UInt32 → Program Console (Option UInt32)
  | 0, _ => .stalled
  | patience + 1, offset =>
    match left? length offset with
    | none => pure none
    | some left =>
      if left < 4 then pure (some offset)
      else do
        sendWord (address + offset)
        match advance? length offset 4 with
        | none => pure none
        | some offset => countWords address length patience offset

/-- Sends bytes up to the end of the block, and returns the offset there. -/
def countBytes (address length : UInt32) : Nat → UInt32 → Program Console (Option UInt32)
  | 0, _ => .stalled
  | patience + 1, offset =>
    if offset < length then do
      Console.send (← Console.memory (Memory.read (address + offset)))
      match advance? length offset 1 with
      | none => pure none
      | some offset => countBytes address length patience offset
    else pure (some offset)

/-- Sends a block with a counted offset, which is returned. Nothing is returned if a difference or a
step was refused. -/
def sendCounted (byWords : Bool) (address length : UInt32) (patience : Nat) :
    Program Console (Option UInt32) := do
  match ← if byWords then countWords address length patience 0 else pure (some 0) with
  | none => pure none
  | some offset => countBytes address length patience offset

/-! ### Nothing is ever refused -/

theorem left?_of_le {length offset : UInt32} (h : offset ≤ length) :
    left? length offset = some (length - offset) := if_pos h

/-- A step inside the block is made, and does not wrap round. -/
theorem advance?_of_le {length offset count : UInt32}
    (h : offset.toNat + count.toNat ≤ length.toNat) :
    advance? length offset count = some (offset + count) ∧
      (offset + count).toNat = offset.toNat + count.toNat := by
  refine ⟨if_pos h, ?_⟩
  rw [UInt32.toNat_add]
  exact Nat.mod_eq_of_lt (Nat.lt_of_le_of_lt h length.toNat_lt)

/-- The words are sent that are left behind an offset, and fewer than four bytes remain. -/
theorem countWords_eq (address : UInt32) {length offset : UInt32} {count rest patience : Nat}
    (hrest : rest < 4) (hlength : offset.toNat + (4 * count + rest) = length.toNat)
    (hpatience : count < patience) :
    countWords address length patience offset =
      (sendWords (address + offset) count >>= fun _ =>
        pure (some (offset + (4 * count).toUInt32))) := by
  obtain ⟨patience, rfl⟩ := Nat.exists_eq_add_one_of_ne_zero (Nat.ne_zero_of_lt hpatience)
  have hfour : (4 : UInt32).toNat = 4 := rfl
  -- The offset moves on, so it has to be general; what is left of the block shrinks by a word.
  induction count generalizing offset patience with
  | zero =>
    have hle : offset ≤ length := UInt32.le_iff_toNat_le.mpr (by omega)
    -- Fewer than four bytes are left, and the difference says so.
    have hdone : length - offset < 4 := by
      rw [UInt32.lt_iff_toNat_lt, UInt32.toNat_sub_of_le _ _ hle]
      omega
    rw [countWords, left?_of_le hle]
    simp only [if_pos hdone]
    show pure (some offset) = pure (some (offset + 0))
    rw [UInt32.add_zero]
  | succ count ih =>
    have hle : offset ≤ length := UInt32.le_iff_toNat_le.mpr (by omega)
    have hmore : ¬ length - offset < 4 := by
      rw [UInt32.lt_iff_toNat_lt, UInt32.toNat_sub_of_le _ _ hle]
      omega
    -- A step of four stays inside the block, so it is not refused.
    have hinside : offset.toNat + (4 : UInt32).toNat ≤ length.toNat := by omega
    obtain ⟨hadvance, hnext⟩ := advance?_of_le hinside
    have hrounds : count < patience := Nat.lt_of_succ_lt_succ hpatience
    obtain ⟨patience, rfl⟩ := Nat.exists_eq_add_one_of_ne_zero (Nat.ne_zero_of_lt hrounds)
    have hleft : (offset + 4).toNat + (4 * count + rest) = length.toNat := by omega
    have hloop := ih hleft patience hrounds
    have hlast : offset + (4 * (count + 1)).toUInt32 = offset + 4 + (4 * count).toUInt32 := by
      rw [Nat.mul_succ, Nat.add_comm, Word.add_offset]
      rfl
    rw [countWords, left?_of_le hle]
    simp only [if_neg hmore, hadvance, hloop, sendWords, bind_assoc, UInt32.add_assoc, hlast]

/-- The bytes are sent that are left behind an offset. -/
theorem countBytes_eq (address : UInt32) {length offset : UInt32} {count patience : Nat}
    (hlength : offset.toNat + count = length.toNat) (hpatience : count < patience) :
    countBytes address length patience offset =
      (sendBytes (address + offset) count >>= fun _ => pure (some length)) := by
  obtain ⟨patience, rfl⟩ := Nat.exists_eq_add_one_of_ne_zero (Nat.ne_zero_of_lt hpatience)
  -- By induction on what is left of the block, one byte a round, one round of patience each.
  induction count generalizing offset patience with
  | zero =>
    obtain rfl : offset = length := UInt32.toNat_inj.mp hlength
    rw [countBytes, if_neg (UInt32.lt_irrefl offset)]
    rfl
  | succ count ih =>
    have hone : (1 : UInt32).toNat = 1 := rfl
    have hlt : offset < length := UInt32.lt_iff_toNat_lt.mpr (by omega)
    have hinside : offset.toNat + (1 : UInt32).toNat ≤ length.toNat := by omega
    obtain ⟨hadvance, hnext⟩ := advance?_of_le hinside
    have hrounds : count < patience := Nat.lt_of_succ_lt_succ hpatience
    obtain ⟨patience, rfl⟩ := Nat.exists_eq_add_one_of_ne_zero (Nat.ne_zero_of_lt hrounds)
    have hleft : (offset + 1).toNat + count = length.toNat := by omega
    have hloop := ih hleft patience hrounds
    rw [countBytes, if_pos hlt]
    simp only [hadvance, hloop, sendBytes, bind_assoc, UInt32.add_assoc]

/-- The count never leaves the block, and both loops come to an end. -/
theorem sendCounted_eq (byWords : Bool) {address length : UInt32} {patience : Nat}
    (hpatience : length.toNat < patience) :
    sendCounted byWords address length patience =
      (sendBlock byWords address length.toNat >>= fun _ => pure (some length)) := by
  have hzero : (0 : UInt32).toNat = 0 := rfl
  cases byWords with
  | false =>
    have hlength : (0 : UInt32).toNat + length.toNat = length.toNat := by omega
    have hbytes := countBytes_eq address hlength hpatience
    rw [UInt32.add_zero] at hbytes
    simpa [sendCounted, sendBlock, sendWords] using hbytes
  | true =>
    -- The words end where the bytes go on, and both loops together come to the length.
    have hwhole : 4 * (length.toNat / 4) ≤ length.toNat := Nat.mul_div_le length.toNat 4
    have hrest : length.toNat % 4 < 4 := Nat.mod_lt _ (by omega)
    have hlength : (0 : UInt32).toNat + (4 * (length.toNat / 4) + length.toNat % 4) =
        length.toNat := by omega
    have hrounds : length.toNat / 4 < patience := by omega
    have hwords := countWords_eq address hrest hlength hrounds
    have hoffset : (4 * (length.toNat / 4)).toUInt32.toNat = 4 * (length.toNat / 4) :=
      UInt32.toNat_ofNat_of_lt' (Nat.lt_of_le_of_lt hwhole length.toNat_lt)
    have hbehind : (4 * (length.toNat / 4)).toUInt32.toNat +
        (length.toNat - 4 * (length.toNat / 4)) = length.toNat := by omega
    have hlast : length.toNat - 4 * (length.toNat / 4) < patience := by omega
    have hbytes := countBytes_eq address hbehind hlast
    rw [UInt32.add_zero, UInt32.zero_add] at hwords
    simp only [sendCounted, sendBlock, if_true, hwords, bind_assoc, pure_bind, hbytes]

/-! ### On the bus -/

/-- **By words or by bytes, a block is the same on the bus.** Every byte of it is read once, in
ascending order, and what is sent is the answers, as many as were asked for; and a word is wide
enough to count them. -/
theorem sendBlock_calls (layout : Layout) (desk : Desk) (address length : UInt32) :
    let reads : Program Memory Bytes :=
      (List.range length.toNat).mapM fun i => Memory.read (address + i.toUInt32)
    (∀ byWords, Console.onBus layout desk (sendBlock byWords address length.toNat) =
      layout.lower reads >>= fun bytes => pure (.ok ((), desk.display bytes))) ∧
    ((reads >>= fun bytes => pure bytes.length) = reads >>= fun _ => pure length.toNat) ∧
    ∀ byWords spare, sendCounted byWords address length (length.toNat + spare + 1) =
      sendBlock byWords address length.toNat >>= fun _ => pure (some length) := by
  intro reads
  refine ⟨fun byWords => ?_, Memory.readEach_length address length.toNat, fun byWords spare => ?_⟩
  · have hcalls := Console.onBus_of_sends layout desk (sends_sendBlock byWords address length.toNat)
    rw [hcalls, Layout.lower_bind, bind_assoc]
    rfl
  · exact sendCounted_eq byWords (by omega)

end Bulk.Session

end DebugMonitor
