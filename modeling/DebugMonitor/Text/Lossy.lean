import DebugMonitor.Text.Basic

/-!
# Reading bytes as UTF-8

Whatever was sent can be shown: `Text.ofUtf8` reads bytes as UTF-8 and puts one replacement
character for each piece that is no part of a character. A piece is as long as it can be and still
begin some character, so `e2 82` at the end is one piece, and `e0 80` are two.
-/

namespace DebugMonitor.Text

/-- What a first byte announces: the bits it gives, and for each byte that must follow, the range it
lies in. These are the rows of the table of well-formed sequences. -/
def announced (first : UInt8) : Option (Nat × List (UInt8 × UInt8)) :=
  let any := (0x80, 0xbf)
  if first < 0x80 then some (first.toNat, [])
  else if first < 0xc2 then none
  else if first < 0xe0 then some (first.toNat % 0x20, [any])
  else if first = 0xe0 then some (0, [(0xa0, 0xbf), any])
  else if first = 0xed then some (0xd, [(0x80, 0x9f), any])
  else if first < 0xf0 then some (first.toNat % 0x10, [any, any])
  else if first = 0xf0 then some (0, [(0x90, 0xbf), any, any])
  else if first < 0xf4 then some (first.toNat % 0x08, [any, any, any])
  else if first = 0xf4 then some (4, [(0x80, 0x8f), any, any])
  else none

/-- Takes bytes while they lie in the ranges that are due. The code point is there once all came. -/
def gather (bits : Nat) : List (UInt8 × UInt8) → Bytes → Option Nat × Bytes
  | [], rest => (some bits, rest)
  | _ :: _, [] => (none, [])
  | (low, high) :: due, b :: rest =>
    if low ≤ b ∧ b ≤ high then gather (bits * 0x40 + b.toNat % 0x40) due rest
    else (none, b :: rest)

theorem length_gather_le (bits : Nat) (due : List (UInt8 × UInt8)) (bytes : Bytes) :
    (gather bits due bytes).2.length ≤ bytes.length := by
  fun_induction gather bits due bytes with
  | case1 => simp
  | case2 => simp
  | case3 bits low high due b rest _ ih => simp only [List.length_cons]; omega
  | case4 => simp

def replacement : Char := '\ufffd'

/-- Reads all of the bytes, with a replacement for each piece that is no part of a character. -/
def ofUtf8 : Bytes → Text
  | [] => []
  | first :: rest =>
    match announced first with
    | none => replacement :: ofUtf8 rest
    | some (bits, due) =>
      have := length_gather_le bits due rest
      ((gather bits due rest).1.map Char.ofNat).getD replacement ::
        ofUtf8 (gather bits due rest).2
termination_by bytes => bytes.length

end DebugMonitor.Text
