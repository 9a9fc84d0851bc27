import DebugMonitor.Proofs.Bulk.Item
import DebugMonitor.Proofs.Console.Desk

/-!
# What is read is sent

A block that is asked for is read byte by byte, or, where the data window has to be moved, by words
as far as they go. A word is four bytes, so both are the same accesses in the same order, and the
bytes that are sent are the bytes that were read.
-/

namespace DebugMonitor

namespace Memory

theorem readEach_one (address : UInt32) :
    readEach address 1 = (read address >>= fun b => pure [b]) := by
  rw [readEach]
  simp

/-- Reading a block is reading its two parts. -/
theorem readEach_add (address : UInt32) (count more : Nat) :
    readEach address (count + more) =
      (readEach address count >>= fun s =>
        readEach (address + count.toUInt32) more >>= fun t => pure (s ++ t)) := by
  simp only [readEach, List.range_add, List.mapM_append, List.mapM_map, Function.comp_def,
    Word.add_offset]

/-- As many bytes are read as were asked for. -/
theorem readEach_length (address : UInt32) (count : Nat) :
    (readEach address count >>= fun bytes => pure bytes.length) =
      (readEach address count >>= fun _ => pure count) := by
  induction count with
  | zero => rfl
  | succ count ih =>
    have hlast : ∀ bytes : Bytes,
        (readEach (address + count.toUInt32) 1 >>= fun last => pure (bytes ++ last).length) =
          (readEach (address + count.toUInt32) 1 >>= fun _ => pure (bytes.length + 1)) := by
      intro bytes
      simp only [readEach_one, bind_assoc, pure_bind, List.length_append, List.length_singleton]
    have hgrown := congrArg (fun lengths : Program Memory Nat => lengths >>= fun length =>
      readEach (address + count.toUInt32) 1 >>= fun _ => pure (length + 1)) ih
    simp only [bind_assoc, pure_bind] at hgrown
    simp only [readEach_add, bind_assoc, pure_bind, hlast, hgrown]

/-- The bytes of a word are the four bytes at its address. -/
theorem readWord_toBytes (address : UInt32) :
    (readWord address >>= fun word => pure (Word.toBytes word)) = readEach address 4 := by
  have hbytes : ∀ a b c d : UInt8, Word.toBytes (Word.ofBytes [a, b, c, d]) = [a, b, c, d] :=
    fun a b c d => Word.toBytes_ofBytes rfl
  simp [readWord, readBytes, readEach, hbytes, List.range, List.range.loop, UInt32.add_assoc]

end Memory

namespace Bulk.Session

open Console (Sends)

theorem sends_sendWord (address : UInt32) :
    Sends (sendWord address)
      (Memory.readEach address 4 >>= fun s => pure ((), s)) := by
  rw [← Memory.readWord_toBytes]
  have h := (Sends.memory (Memory.readWord address)).bind fun word =>
    Sends.sendAll (Word.toBytes word)
  simpa [sendWord] using h

/-- Words are sent as the bytes of a block four times as long. -/
theorem sends_sendWords (address : UInt32) (count : Nat) :
    Sends (sendWords address count)
      (Memory.readEach address (4 * count) >>= fun s => pure ((), s)) := by
  induction count generalizing address with
  | zero => exact .pure ()
  | succ count ih =>
    have h := (sends_sendWord address).followed (ih (address + 4))
    have hsplit := Memory.readEach_add address 4 (4 * count)
    rw [Nat.mul_succ, Nat.add_comm (4 * count), hsplit]
    simpa [sendWords] using h

theorem sends_sendBytes (address : UInt32) (count : Nat) :
    Sends (sendBytes address count)
      (Memory.readEach address count >>= fun s => pure ((), s)) := by
  induction count generalizing address with
  | zero => exact .pure ()
  | succ count ih =>
    have hsend : Sends (Console.memory (Memory.read address) >>= Console.send)
        (Memory.readEach address 1 >>= fun s => pure ((), s)) := by
      rw [Memory.readEach_one]
      have h := (Sends.memory (Memory.read address)).bind fun b => Sends.sendAll [b]
      simpa [Console.sendAll] using h
    have h := hsend.followed (ih (address + 1))
    have hsplit := Memory.readEach_add address 1 count
    rw [Nat.add_comm] at hsplit
    rw [hsplit]
    simpa [sendBytes] using h

/-- A block is sent whole, however it is read. -/
theorem sends_sendBlock (byWords : Bool) (address : UInt32) (length : Nat) :
    Sends (sendBlock byWords address length)
      (Memory.readEach address length >>= fun s => pure ((), s)) := by
  have hwords : 4 * (if byWords then length / 4 else 0) ≤ length := by
    split
    · exact Nat.mul_div_le length 4
    · exact Nat.zero_le length
  have h := (sends_sendWords address (if byWords then length / 4 else 0)).followed
    (sends_sendBytes (address + (4 * (if byWords then length / 4 else 0)).toUInt32)
      (length - 4 * (if byWords then length / 4 else 0)))
  have hsplit := Memory.readEach_add address (4 * (if byWords then length / 4 else 0))
    (length - 4 * (if byWords then length / 4 else 0))
  rw [Nat.add_sub_cancel' hwords] at hsplit
  rw [hsplit]
  simpa [sendBlock] using h

end Bulk.Session

end DebugMonitor
