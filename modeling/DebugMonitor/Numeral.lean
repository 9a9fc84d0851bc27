import DebugMonitor.Text.Basic

/-!
# Numerals

How the console reads and writes 32-bit numbers. It reads hexadecimal only: one to eight digits in
either case, after at most one marker `0x` or `0X`. The limit is counted in bytes of UTF-8 and comes
before everything else, so a long text is too long whatever it consists of.

It writes the significant digits of a number (zero has none), most significant first and with zeros
in front up to the width asked for, but always at least one digit.
-/

namespace DebugMonitor.Numeral

/-! ### Reading -/

/-- Why a text is no numeral. -/
inductive Malformed where
  | tooLong
  | empty
  | invalidCharacter (c : Char)
  deriving DecidableEq, Repr

def Malformed.message : Malformed → Text
  | tooLong => "Hex string too long."
  | empty => "Hex string is empty."
  | invalidCharacter c => "Bad character in hex string: " ++ [c]

/-- As many digits as a word has. -/
def maxDigits : Nat := 8

/-- The value of a hexadecimal digit, in either case. -/
def hexDigit? (c : Char) : Option Nat :=
  if '0' ≤ c ∧ c ≤ '9' then some (c.toNat - '0'.toNat)
  else if 'a' ≤ c ∧ c ≤ 'f' then some (c.toNat - 'a'.toNat + 10)
  else if 'A' ≤ c ∧ c ≤ 'F' then some (c.toNat - 'A'.toNat + 10)
  else none

/-- The text behind the marker, of which at most one is taken away. -/
def stripMarker : Text → Text
  | '0' :: 'x' :: digits => digits
  | '0' :: 'X' :: digits => digits
  | text => text

/-- The number that `value`, followed by the given digits, stands for. -/
def readDigits (value : Nat) : Text → Except Malformed Nat
  | [] => .ok value
  | c :: rest =>
    match hexDigit? c with
    | some digit => readDigits (16 * value + digit) rest
    | none => .error (.invalidCharacter c)

/-- Reads a numeral. The limit comes first, and leading zeros count towards it. -/
def parse (text : Text) : Except Malformed UInt32 :=
  let digits := stripMarker text
  if maxDigits < digits.size then .error .tooLong
  else if digits.isEmpty then .error .empty
  else (readDigits 0 digits).map Nat.toUInt32

/-! ### Writing -/

/-- The significant digits, most significant first. -/
def significant (base value : Nat) : List Nat :=
  if _h : value = 0 ∨ base < 2 then []
  else significant base (value / base) ++ [value % base]
termination_by value
decreasing_by exact Nat.div_lt_self (by omega) (by omega)

/-- The digits of a number, with zeros in front up to the width, and at least one digit. -/
def padded (base minDigits value : Nat) : Text :=
  let digits := (significant base value).map Nat.digitChar
  List.replicate (max 1 minDigits - digits.length) '0' ++ digits

/-- A number as the console shows it, always with a marker. -/
def hex (value : UInt32) (minDigits : Nat) : Text :=
  "0x" ++ padded 16 minDigits value.toNat

def decimal (value : UInt32) (minDigits : Nat) : Text :=
  padded 10 minDigits value.toNat

end DebugMonitor.Numeral
