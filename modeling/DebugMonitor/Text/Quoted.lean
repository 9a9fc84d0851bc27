import DebugMonitor.Numeral
import DebugMonitor.Text.Printable

/-!
# Quoted texts

Names that came from outside are shown between double quotes. Quotes and backslashes are escaped,
the common controls have letters, and every other character that cannot be seen, or would merge
with the one before it, is shown as its code point.
-/

namespace DebugMonitor.Text

/-- How one character is shown between double quotes. -/
def escape (c : Char) : Text :=
  match c with
  | '\x00' => ['\\', '0']
  | '\t' => ['\\', 't']
  | '\n' => ['\\', 'n']
  | '\r' => ['\\', 'r']
  | '"' => ['\\', '"']
  | '\\' => ['\\', '\\']
  | _ =>
    if isPrintable c then [c]
    else ['\\', 'u', '\x7b'] ++ Numeral.padded 16 1 c.toNat ++ ['\x7d']

def quoted (text : Text) : Text := ['"'] ++ text.flatMap escape ++ ['"']

end DebugMonitor.Text
