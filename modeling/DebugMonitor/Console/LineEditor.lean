import DebugMonitor.Text.Basic

/-!
# The line editor

Command lines are typed one byte at a time. Printable characters and tabs are taken while there is
room and echoed; the two erase keys take the last one back; Enter commits the line and Ctrl-C an
empty one. Terminals send the other keys as escape sequences. Those of the arrow and navigation keys
are swallowed, and an unknown one is echoed in caret notation; neither touches the line, whatever
bytes it is made of.

`LineEditor.press` is a pure function: its `Reaction` holds the echo as data. Echoing takes time, so
the reaction also tells the editor as it stands while the echo is on its way. The line is edited
before its echo, except that Enter gives the line away only after the newline, and an escape
sequence is over only when its echo is.
-/

namespace DebugMonitor

/-- How much of an escape sequence has come. -/
inductive KeyState where
  | plain
  | escape
  | csi
  | csiParameter
  | ss3
  deriving DecidableEq, Repr

/-- The line as it was typed so far, and where in an escape sequence the editor is. -/
structure LineEditor where
  line : Bytes := []
  keys : KeyState := .plain
  deriving DecidableEq, Repr

/-- What a byte does to the editor: the echo, the editor meanwhile and after it, and the line that
is committed then, if any. -/
structure Reaction where
  after : LineEditor
  echo : Bytes := []
  meanwhile : LineEditor := after
  committed : Option Bytes := none
  deriving DecidableEq, Repr

namespace LineEditor

/-- The longest line, in bytes. -/
def capacity : Nat := 80

def ctrlC : UInt8 := 0x03
def backspace : UInt8 := 0x08
def tab : UInt8 := 0x09
def enter : UInt8 := 0x0d
def escape : UInt8 := 0x1b
def blank : UInt8 := 0x20
def tilde : UInt8 := 0x7e
def delete : UInt8 := 0x7f

/-- The bytes that may stand in a line. -/
def isTypable (byte : UInt8) : Bool := byte = tab || blank ≤ byte && byte ≤ tilde

/-- The echo of Enter and of Ctrl-C. -/
def newline : Bytes := [0x0d, 0x0a]

/-- Steps back over a character, blanks it, and steps back again. -/
def rubOut : Bytes := [backspace, blank, backspace]

/-- A byte outside of escape sequences. -/
def pressPlain (editor : LineEditor) (byte : UInt8) : Reaction :=
  if byte = enter then
    { after := { editor with line := [] }
      echo := newline
      meanwhile := editor
      committed := some editor.line }
  else if byte = ctrlC then
    { after := { editor with line := [] }, echo := newline, committed := some [] }
  else if byte = backspace ∨ byte = delete then
    if editor.line.isEmpty then { after := editor }
    else { after := { editor with line := editor.line.dropLast }, echo := rubOut }
  else if byte = escape then { after := { editor with keys := .escape } }
  else if isTypable byte ∧ editor.line.length < capacity then
    { after := { editor with line := editor.line ++ [byte] }, echo := [byte] }
  else { after := editor }

/-- Echoes an unknown sequence, its escape byte in caret notation, and ends it. -/
def echoUnknown (editor : LineEditor) (sequence : Text) (byte : UInt8) : Reaction :=
  { after := { editor with keys := .plain }
    echo := Text.utf8 sequence ++ [byte]
    meanwhile := editor }

/-- Takes a byte of a sequence without a trace. -/
def swallow (editor : LineEditor) (keys : KeyState) : Reaction :=
  { after := { editor with keys } }

/-- The reaction to one byte. The parameter of a sequence is followed by one more byte, whatever
that is. -/
def press (editor : LineEditor) (byte : UInt8) : Reaction :=
  match editor.keys with
  | .plain => editor.pressPlain byte
  | .escape =>
    if byte = '['.toUInt8 then editor.swallow .csi
    else if byte = 'O'.toUInt8 then editor.swallow .ss3
    else editor.echoUnknown "^[" byte
  | .csi =>
    if 'A'.toUInt8 ≤ byte ∧ byte ≤ 'D'.toUInt8 then editor.swallow .plain
    else if '1'.toUInt8 ≤ byte ∧ byte ≤ '6'.toUInt8 then editor.swallow .csiParameter
    else editor.echoUnknown "^[[" byte
  | .csiParameter => editor.swallow .plain
  | .ss3 => if byte = 'F'.toUInt8 then editor.swallow .plain else editor.echoUnknown "^[O" byte

/-! ### Streams -/

/-- What a stream of bytes leaves behind: the editor, all that was echoed, and the committed lines,
both in order. -/
structure Transcript where
  editor : LineEditor
  echo : Bytes := []
  lines : List Bytes := []
  deriving DecidableEq, Repr

/-- Feeds a whole stream to the editor. -/
def pressAll (editor : LineEditor) : Bytes → Transcript
  | [] => { editor }
  | byte :: rest =>
    let reaction := editor.press byte
    let later := pressAll reaction.after rest
    { editor := later.editor
      echo := reaction.echo ++ later.echo
      lines := reaction.committed.toList ++ later.lines }

end LineEditor

end DebugMonitor
