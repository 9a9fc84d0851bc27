import DebugMonitor.Bytes

/-!
# Texts

A text is a list of characters, which is what every reader and writer here recurses on. A string
literal may stand for one. On the wire a text is its UTF-8 encoding with every line feed preceded by
a carriage return, so writing two texts one after the other is writing them joined.
-/

namespace DebugMonitor

abbrev Text := List Char

instance : Coe String Text := ⟨String.toList⟩

namespace Text

def utf8 (text : Text) : Bytes := text.flatMap String.utf8EncodeChar

/-- The length of a text in UTF-8. -/
def size (text : Text) : Nat := text.utf8.length

def lineFeed : UInt8 := 0x0a

def carriageReturn : UInt8 := 0x0d

/-- Terminals need a carriage return before each line feed. -/
def expandNewlines (bytes : Bytes) : Bytes :=
  bytes.flatMap fun b => if b = lineFeed then [carriageReturn, lineFeed] else [b]

/-- A text as it goes to the terminal. -/
def wire (text : Text) : Bytes := expandNewlines text.utf8

@[simp] theorem utf8_nil : utf8 [] = [] := rfl

@[simp] theorem utf8_append (s t : Text) : utf8 (s ++ t) = utf8 s ++ utf8 t :=
  List.flatMap_append ..

@[simp] theorem expandNewlines_append (s t : Bytes) :
    expandNewlines (s ++ t) = expandNewlines s ++ expandNewlines t :=
  List.flatMap_append ..

@[simp] theorem wire_append (s t : Text) : wire (s ++ t) = wire s ++ wire t := by
  simp [wire]

/-- One character per byte: a line of the console, whose bytes are all below 128. -/
def ofBytes (bytes : Bytes) : Text := bytes.map Char.ofUInt8

end Text

end DebugMonitor
