import DebugMonitor.Bytes
import Std.Data.TreeMap

/-!
# Sparse bytes

A store of bytes that holds those once written; all others are zero.
-/

namespace DebugMonitor.Sim

/-- The bytes that were written, by their addresses. -/
structure Cells where
  written : Std.TreeMap Nat UInt8

namespace Cells

def empty : Cells := ⟨∅⟩

def get (cells : Cells) (address : Nat) : UInt8 := cells.written.getD address 0

def set (cells : Cells) (address : Nat) (value : UInt8) : Cells :=
  ⟨cells.written.insert address value⟩

/-- Writes bytes side by side, the first at `address`. -/
def load (cells : Cells) (address : Nat) : Bytes → Cells
  | [] => cells
  | b :: rest => (cells.set address b).load (address + 1) rest

/-- The bytes that are not zero, by ascending address. -/
def nonzero (cells : Cells) : List (Nat × UInt8) := cells.written.toList.filter (·.2 ≠ 0)

@[simp] theorem get_empty (address : Nat) : empty.get address = 0 := by
  simp [get, empty]

@[grind =] theorem get_set (cells : Cells) (written address : Nat) (value : UInt8) :
    (cells.set written value).get address =
      if written = address then value else cells.get address := by
  simp [get, set, Std.TreeMap.getD_insert]

end Cells

end DebugMonitor.Sim
