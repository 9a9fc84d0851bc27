import DebugMonitor.Bus
import DebugMonitor.Text.Basic

/-!
# Chip variants

A chip is known by the token that its firmware carries at a fixed place in code space. Its first
eight bytes decide; fewer name no chip. On the console a variant goes by its marketing name.
-/

namespace DebugMonitor

/-- The supported chips, and any other. -/
inductive Variant where
  | asm1042
  | asm1042A
  | asm1142
  | asm2142
  | asm3242
  | unknown
  deriving DecidableEq, Repr

namespace Variant

/-- In the order in which tokens are tried. -/
def known : List Variant := [asm1042, asm1042A, asm1142, asm2142, asm3242]

/-- The marketing name, in capital letters. -/
def name : Variant → Text
  | asm1042 => "ASM1042"
  | asm1042A => "ASM1042A"
  | asm1142 => "ASM1142"
  | asm2142 => "ASM2142"
  | asm3242 => "ASM3242"
  | unknown => "UNKNOWN"

/-- Letters count in either case. -/
def ofName? (text : Text) : Option Variant :=
  known.find? (·.name == text.map Char.toUpper)

/-! ### Tokens -/

def tokenOffset : UInt32 := 0x87

def tokenSize : Nat := 8

/-- The token in the firmware of a variant. -/
def token? : Variant → Option Bytes
  | asm1042 => some (Text.utf8 "U2104_FW")
  | asm1042A => some (Text.utf8 "2104B_FW")
  | asm1142 => some (Text.utf8 "2114A_FW")
  | asm2142 => some (Text.utf8 "2214A_FW")
  | asm3242 => some (Text.utf8 "2324A_FW")
  | unknown => none

/-- The variant of a token, of which the first eight bytes count. -/
def ofToken (token : Bytes) : Variant :=
  (known.find? (·.token? == some (token.take tokenSize))).getD unknown

def readCode (offset : UInt32) : Nat → Program Bus Bytes
  | 0 => pure []
  | count + 1 => do
    let b ← Bus.code offset
    let rest ← readCode (offset + 1) count
    return b :: rest

def readToken : Program Bus Bytes := readCode tokenOffset tokenSize

end Variant

end DebugMonitor
