import DebugMonitor.Proofs.Console.Turn

/-!
# What the screen shows is what will be committed

The person at the terminal sees the echo, not the line. A `Screen` is how a terminal draws what it
is sent: characters go where the cursor is, and the three control bytes of the editor move it. On
such a screen the row of the cursor shows the pending text and nothing else, with the cursor behind
it, and a row that Enter leaves shows the line that was committed (`pressAll_shows`).

That takes keystrokes that are drawn as they are meant. A tab in the text moves the cursor further
than one cell, and an unknown escape sequence is shown without being in the text.
-/

namespace DebugMonitor

/-! ### Screens -/

/-- Rows of unbounded width, the lowest with the cursor in it. -/
structure Screen where
  row : Nat → UInt8 := fun _ => 0x20
  column : Nat := 0
  /-- The rows that were left, the latest first. -/
  above : List (Nat → UInt8) := []

namespace Screen

def put (screen : Screen) (byte : UInt8) : Screen :=
  if byte = 0x08 then { screen with column := screen.column - 1 }
  else if byte = 0x0d then { screen with column := 0 }
  else if byte = 0x0a then
    { screen with row := fun _ => 0x20, above := screen.row :: screen.above }
  else if 0x20 ≤ byte ∧ byte ≤ 0x7e then
    { screen with
      row := Function.update screen.row screen.column byte
      column := screen.column + 1 }
  else screen

def putAll (screen : Screen) : Bytes → Screen
  | [] => screen
  | byte :: rest => (screen.put byte).putAll rest

/-- Bytes that a screen can draw. To step back there must be a cell to step back over. -/
def Draws (screen : Screen) (byte : UInt8) : Prop :=
  if byte = 0x08 then 0 < screen.column
  else byte = 0x0d ∨ byte = 0x0a ∨ 0x20 ≤ byte ∧ byte ≤ 0x7e

def DrawsAll (screen : Screen) : Bytes → Prop
  | [] => True
  | byte :: rest => screen.Draws byte ∧ (screen.put byte).DrawsAll rest

/-- All of the bytes can be drawn, and this is the screen then. -/
structure Drawn (screen : Screen) (bytes : Bytes) (after : Screen) : Prop where
  putAll_eq : screen.putAll bytes = after
  draws : screen.DrawsAll bytes

/-- A row with a text at its beginning and blank cells behind it. -/
structure Shows (row : Nat → UInt8) (text : Bytes) : Prop where
  written : ∀ i (h : i < text.length), row i = text[i]
  blank : ∀ i, text.length ≤ i → row i = 0x20

theorem putAll_append (screen : Screen) (s t : Bytes) :
    screen.putAll (s ++ t) = (screen.putAll s).putAll t := by
  induction s generalizing screen with
  | nil => rfl
  | cons byte rest ih => exact ih _

theorem drawsAll_append (screen : Screen) (s t : Bytes) :
    screen.DrawsAll (s ++ t) ↔ screen.DrawsAll s ∧ (screen.putAll s).DrawsAll t := by
  induction s generalizing screen with
  | nil => simp [DrawsAll, putAll]
  | cons byte rest ih => simp only [List.cons_append, DrawsAll, putAll, ih, and_assoc]

theorem Drawn.nil {screen : Screen} : Drawn screen [] screen := ⟨rfl, trivial⟩

theorem Drawn.append {screen middle after : Screen} {s t : Bytes} (first : Drawn screen s middle)
    (next : Drawn middle t after) : Drawn screen (s ++ t) after := by
  constructor
  · rw [putAll_append, first.putAll_eq, next.putAll_eq]
  · rw [drawsAll_append, first.putAll_eq]
    exact ⟨first.draws, next.draws⟩

/-! ### Rows of text -/

def rowOf (text : Bytes) : Nat → UInt8 := fun i => text.getD i 0x20

theorem shows_rowOf (text : Bytes) : Shows (rowOf text) text where
  written i h := by simp [rowOf, h]
  blank i h := by simp [rowOf, h]

/-- A byte more changes one column of the row. -/
theorem rowOf_concat (text : Bytes) (b : UInt8) :
    rowOf (text ++ [b]) = Function.update (rowOf text) text.length b := by
  funext i
  rcases Nat.lt_trichotomy i text.length with hlt | rfl | hgt
  · simp [rowOf, Function.update_of_ne (Nat.ne_of_lt hlt), List.getElem?_append_left hlt]
  · simp [rowOf]
  · have hlong : (text ++ [b]).length ≤ i := by simpa using hgt
    rw [Function.update_of_ne (Nat.ne_of_gt hgt), (shows_rowOf _).blank i hlong,
      (shows_rowOf text).blank i (Nat.le_of_lt hgt)]

/-- Blanking the last cell of a text takes the text back by it. -/
theorem update_rowOf_concat (text : Bytes) (b : UInt8) :
    Function.update (rowOf (text ++ [b])) text.length 0x20 = rowOf text := by
  have hblank : rowOf text text.length = 0x20 := (shows_rowOf text).blank _ (Nat.le_refl _)
  rw [rowOf_concat, Function.update_idem, ← hblank, Function.update_eq_self]

/-- The screen while a text is typed. -/
def typing (above : List (Nat → UInt8)) (text : Bytes) : Screen := ⟨rowOf text, text.length, above⟩

variable (above : List (Nat → UInt8)) (text : Bytes)

/-- A printable byte is drawn behind the line. -/
theorem drawn_typed {b : UInt8} (h : 0x20 ≤ b ∧ b ≤ 0x7e) :
    Drawn (typing above text) [b] (typing above (text ++ [b])) := by
  have hne : ∀ control : UInt8, control < 0x20 → b ≠ control := by
    rintro control hcontrol rfl
    exact absurd h.1 (UInt8.not_le.mpr hcontrol)
  have hput : (typing above text).put b = typing above (text ++ [b]) := by
    rw [put, if_neg (hne _ (by decide)), if_neg (hne _ (by decide)), if_neg (hne _ (by decide)),
      if_pos h, typing, typing, rowOf_concat, List.length_append]
    rfl
  refine ⟨hput, ?_, trivial⟩
  rw [Draws, if_neg (hne _ (by decide))]
  exact .inr (.inr h)

/-- Rubbing out takes the last byte off the row, and the cursor back. -/
theorem drawn_rubOut (b : UInt8) :
    Drawn (typing above (text ++ [b])) LineEditor.rubOut (typing above text) := by
  have hlength : (text ++ [b]).length = text.length + 1 := List.length_append
  -- One step back, a blank over the last byte, and a step back again.
  have hback : (typing above (text ++ [b])).put LineEditor.backspace =
      ⟨rowOf (text ++ [b]), text.length, above⟩ := by
    show Screen.mk _ ((text ++ [b]).length - 1) _ = _
    rw [hlength]
    rfl
  have hblank : (Screen.mk (rowOf (text ++ [b])) text.length above).put LineEditor.blank =
      ⟨rowOf text, text.length + 1, above⟩ := by
    show Screen.mk (Function.update _ text.length 0x20) _ _ = _
    rw [update_rowOf_concat]
  constructor
  · show (((typing above (text ++ [b])).put LineEditor.backspace).put LineEditor.blank).put
      LineEditor.backspace = _
    rw [hback, hblank]
    rfl
  · refine ⟨?_, ?_, ?_, trivial⟩
    · show 0 < (text ++ [b]).length
      omega
    · exact .inr (.inr (by decide))
    · rw [hback, hblank]
      exact Nat.succ_pos _

/-- A newline leaves the row as it is and starts another one. -/
theorem drawn_newline :
    Drawn (typing above text) LineEditor.newline (typing (rowOf text :: above) []) :=
  ⟨rfl, .inl rfl, .inr (.inl rfl), trivial⟩

end Screen

/-! ### Keystrokes on the screen -/

namespace Keystroke

/-- A keystroke that is drawn as it is meant: no tab in the text, and no unknown sequence. -/
def Legible (before : Bytes) : Keystroke → Prop
  | byte b _ => b = 0x09 → ¬ Fits before b
  | alt .. => False
  | csi final _ => 'A'.toUInt8 ≤ final ∧ final ≤ 'D'.toUInt8
  | csiParameter .. => True
  | ss3 final => final = 'F'.toUInt8

def LegibleAll (before : Bytes) : List Keystroke → Prop
  | [] => True
  | key :: keys => key.Legible before ∧ LegibleAll (key.text before) keys

instance (before : Bytes) : (key : Keystroke) → Decidable (key.Legible before)
  | byte b _ => inferInstanceAs (Decidable (b = 0x09 → ¬ Fits before b))
  | alt .. => .isFalse id
  | csi final _ => inferInstanceAs (Decidable ('A'.toUInt8 ≤ final ∧ final ≤ 'D'.toUInt8))
  | csiParameter .. => .isTrue trivial
  | ss3 final => inferInstanceAs (Decidable (final = 'F'.toUInt8))

instance decidableLegibleAll : (before : Bytes) → (keys : List Keystroke) →
    Decidable (LegibleAll before keys)
  | _, [] => .isTrue trivial
  | before, key :: keys =>
    have := decidableLegibleAll (key.text before) keys
    inferInstanceAs (Decidable (key.Legible before ∧ LegibleAll (key.text before) keys))

theorem LegibleAll.of_prefix {before : Bytes} {keys others : List Keystroke}
    (h : LegibleAll before others) (hbegins : keys <+: others) : LegibleAll before keys := by
  induction keys generalizing before others with
  | nil => trivial
  | cons key keys ih =>
    obtain ⟨rest, rfl⟩ := hbegins
    exact ⟨h.1, ih h.2 (List.prefix_append keys rest)⟩

/-- The echo of a keystroke turns the row of the line before it into that of the line after it. -/
theorem drawn_echo {before : Bytes} {key : Keystroke} (h : key.Legible before)
    (above : List (Nat → UInt8)) :
    ∃ left, (Screen.typing above before).Drawn (key.echo before)
      (Screen.typing left (key.text before)) := by
  have hnothing : (Screen.typing above before).Drawn [] (Screen.typing above before) := .nil
  cases key with
  | byte b hb =>
    rw [echo, text]
    -- The cases of the keystroke machine in their order: newline, erase, typed, ignored.
    by_cases hnewline : b = 0x0d ∨ b = 0x03
    · rw [if_pos hnewline, if_pos hnewline]
      exact ⟨_, Screen.drawn_newline above before⟩
    rw [if_neg hnewline, if_neg hnewline]
    by_cases herase : b = 0x08 ∨ b = 0x7f
    · rw [if_pos herase, if_pos herase]
      rcases List.eq_nil_or_concat before with rfl | ⟨shorter, last, rfl⟩
      · exact ⟨above, hnothing⟩
      · rw [if_neg (by simp), List.concat_eq_append, List.dropLast_concat]
        exact ⟨above, Screen.drawn_rubOut above shorter last⟩
    rw [if_neg herase, if_neg herase]
    by_cases hfits : Fits before b
    · rw [if_pos hfits, if_pos hfits]
      refine ⟨above, Screen.drawn_typed above before ?_⟩
      rcases hfits.1 with htab | hprintable
      · exact absurd hfits (h htab)
      · exact hprintable
    · rw [if_neg hfits, if_neg hfits]
      exact ⟨above, hnothing⟩
  -- Sequences that are echoed in caret notation are not legible.
  | alt final hfinal => exact h.elim
  | csi final hfinal =>
    have hswallowed : (csi final hfinal).echo before = [] := if_pos h
    rw [hswallowed]
    exact ⟨above, hnothing⟩
  | csiParameter parameter final hparameter => exact ⟨above, hnothing⟩
  | ss3 final =>
    have hswallowed : (ss3 final).echo before = [] := if_pos h
    rw [hswallowed]
    exact ⟨above, hnothing⟩

theorem drawn_echoAll {before : Bytes} {keys : List Keystroke} (h : LegibleAll before keys)
    (above : List (Nat → UInt8)) :
    ∃ left, (Screen.typing above before).Drawn (echoAll before keys)
      (Screen.typing left (textAll before keys)) := by
  induction keys generalizing before above with
  | nil => exact ⟨above, .nil⟩
  | cons key keys ih =>
    obtain ⟨middle, hkey⟩ := drawn_echo h.1 above
    obtain ⟨left, hkeys⟩ := ih h.2 middle
    exact ⟨left, hkey.append hkeys⟩

/-- A stream of bytes that come from legible keystrokes. -/
def LegibleStream (stream : Bytes) : Prop :=
  ∃ cut : Cut encode, cut.stream = stream ∧ LegibleAll [] cut.items

end Keystroke

/-! ### The editor at a screen -/

namespace LineEditor

/-- The items of a stream do all there is to do, and the sequence in progress only moves the
state. -/
theorem pressAll_cut (cut : Cut Keystroke.encode) :
    ∃ keys, pressAll {} cut.stream = { editor := ⟨Keystroke.textAll [] cut.items, keys⟩
                                       echo := Keystroke.echoAll [] cut.items
                                       lines := Keystroke.linesAll [] cut.items } := by
  obtain ⟨keys, hrest, -⟩ := pressAll_opening (Keystroke.textAll [] cut.items)
    (Keystroke.opening_of_unfinished cut.unfinished)
  refine ⟨keys, ?_⟩
  rw [Cut.stream, pressAll_items, hrest]
  simp [Transcript.after]

/-- At every moment of a legible stream the last row shows the line. -/
theorem drawn_pressAll {stream fed : Bytes} (h : Keystroke.LegibleStream stream)
    (hfed : fed <+: stream) :
    ∃ above, Screen.Drawn {} (pressAll {} fed).echo
      (Screen.typing above (pressAll {} fed).editor.line) := by
  obtain ⟨whole, rfl, hlegible⟩ := h
  obtain ⟨cut, rfl⟩ := Keystroke.prefixCode.exists_cut fed
  have hitems : cut.items <+: whole.items := Keystroke.prefixCode.items_prefix hfed
  obtain ⟨keys, hpress⟩ := pressAll_cut cut
  rw [hpress]
  exact Keystroke.drawn_echoAll (hlegible.of_prefix hitems) []

/-- **The row of the cursor shows the line.** After every byte of a legible stream, the cells left
of the cursor are the pending text and all others are blank. Every byte of the echo can be drawn
where it comes, so that nothing steps back over the margin. Enter commits what the row showed, and
leaves it as it was. -/
theorem pressAll_shows {stream fed : Bytes} (h : Keystroke.LegibleStream stream)
    (hfed : fed <+: stream) :
    let typed := pressAll {} fed
    let text := typed.editor.line
    let screen := Screen.putAll {} typed.echo
    (screen.column = text.length ∧ Screen.Shows screen.row text) ∧
    (∀ shown byte later, typed.echo = shown ++ byte :: later →
      (Screen.putAll {} shown).Draws byte) ∧
    (typed.editor.keys = .plain →
      let entered := pressAll {} (fed ++ [enter])
      entered.lines = typed.lines ++ [text] ∧
      ∃ left, (Screen.putAll {} entered.echo).above = left :: screen.above ∧
        Screen.Shows left text) := by
  intro typed text screen
  -- The screen is the one that the line is typed on, with what stands above it.
  obtain ⟨above, hscreen, hdraws⟩ := drawn_pressAll h hfed
  have hscreen : screen = Screen.typing above text := hscreen
  refine ⟨?_, ?_, ?_⟩
  · rw [hscreen]
    exact ⟨rfl, Screen.shows_rowOf text⟩
  · intro shown byte later hecho
    have hsplit : Screen.DrawsAll {} (shown ++ byte :: later) := hecho ▸ hdraws
    rw [Screen.drawsAll_append] at hsplit
    exact hsplit.2.1
  · intro hplain entered
    have heditor : typed.editor = ⟨text, .plain⟩ := congrArg (LineEditor.mk text) hplain
    -- Enter commits the line and its echo is a newline, which moves the row up.
    have hentered : entered = (pressAll ⟨text, .plain⟩ [enter]).after typed.echo typed.lines := by
      rw [← heditor]
      exact pressAll_append {} fed [enter]
    refine ⟨congrArg Transcript.lines hentered, Screen.rowOf text, ?_, Screen.shows_rowOf text⟩
    have hecho : entered.echo = typed.echo ++ newline := congrArg Transcript.echo hentered
    have hnewline := (Screen.drawn_newline above text).putAll_eq
    rw [hecho, Screen.putAll_append]
    show (screen.putAll newline).above = _
    rw [hscreen, hnewline]
    rfl

/-- A line that is full takes no tab, so the tab moves nothing, and neither does an arrow key. -/
theorem pressAll_shows_full :
    let full := List.replicate 80 'a'.toUInt8
    let fed := full ++ [tab, escape, '['.toUInt8, 'D'.toUInt8, delete]
    let text := List.replicate 79 'a'.toUInt8
    Keystroke.LegibleStream (fed ++ [enter]) ∧
      (pressAll {} fed).echo = full ++ rubOut ∧
      (Screen.putAll {} (full ++ rubOut)).column = 79 ∧
      Screen.Shows (Screen.putAll {} (full ++ rubOut)).row text ∧
      (pressAll {} (fed ++ [enter])).lines = [text] ∧
      ∃ left, (Screen.putAll {} (pressAll {} (fed ++ [enter])).echo).above = [left] ∧
        Screen.Shows left text := by
  intro full fed text
  let keys : List Keystroke := List.replicate 80 (.byte 'a'.toUInt8 (by decide)) ++
    [.byte tab (by decide), .csi 'D'.toUInt8 (by decide), .byte delete (by decide),
      .byte enter (by decide)]
  have hlegible : Keystroke.LegibleStream (fed ++ [enter]) :=
    ⟨⟨keys, [], Keystroke.prefixCode.nil⟩, by decide +kernel, by decide +kernel⟩
  have hpress : pressAll {} fed = { editor := { line := text }, echo := full ++ rubOut } := by
    decide +kernel
  obtain ⟨⟨hcolumn, hrow⟩, -, henter⟩ := pressAll_shows hlegible (List.prefix_append fed [enter])
  rw [hpress] at hcolumn hrow henter
  obtain ⟨hlines, left, habove, hleft⟩ := henter rfl
  refine ⟨hlegible, by rw [hpress], hcolumn, hrow, hlines, left, ?_, hleft⟩
  have hnone : (Screen.putAll {} (full ++ rubOut)).above = [] := by decide +kernel
  rw [habove, hnone]

end LineEditor

end DebugMonitor
