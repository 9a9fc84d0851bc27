import DebugMonitor.Console.LineEditor
import DebugMonitor.Proofs.PrefixCode

/-!
# The line editor reads keystrokes

What a terminal sends is a stream of bytes, but what is typed are keystrokes: single bytes, and the
escape sequences of the other keys. `Keystroke` lists them with their bytes, and says what each of
them does to a text, what it shows and which line it commits. No keystroke of more than one byte
does anything to the text.

`pressAll_keystrokes` says that the editor does just that. Its state between the bytes of a sequence
is invisible: a stream has one cut into keystrokes, and the editor follows it, so that Enter inside
a sequence is no Enter.
-/

namespace DebugMonitor

open LineEditor (escape)

/-- A key, as the terminal sends it. -/
inductive Keystroke where
  | byte (b : UInt8) (h : b ≠ escape)
  | alt (final : UInt8) (h : final ≠ '['.toUInt8 ∧ final ≠ 'O'.toUInt8)
  | csi (final : UInt8) (h : ¬ ('1'.toUInt8 ≤ final ∧ final ≤ '6'.toUInt8))
  | csiParameter (parameter final : UInt8)
      (h : '1'.toUInt8 ≤ parameter ∧ parameter ≤ '6'.toUInt8)
  | ss3 (final : UInt8)

namespace Keystroke

def encode : Keystroke → Bytes
  | byte b _ => [b]
  | alt final _ => [escape, final]
  | csi final _ => [escape, '['.toUInt8, final]
  | csiParameter parameter final _ => [escape, '['.toUInt8, parameter, final]
  | ss3 final => [escape, 'O'.toUInt8, final]

/-! ### What a keystroke does -/

/-- Whether a byte is taken into a text. -/
def Fits (before : Bytes) (byte : UInt8) : Prop :=
  (byte = 0x09 ∨ 0x20 ≤ byte ∧ byte ≤ 0x7e) ∧ before.length < 80

instance (before : Bytes) (byte : UInt8) : Decidable (Fits before byte) :=
  inferInstanceAs (Decidable (_ ∧ _))

/-- The text after a keystroke. -/
def text (before : Bytes) : Keystroke → Bytes
  | byte b _ =>
    if b = 0x0d ∨ b = 0x03 then []
    else if b = 0x08 ∨ b = 0x7f then before.dropLast
    else if Fits before b then before ++ [b]
    else before
  | alt .. | csi .. | csiParameter .. | ss3 .. => before

/-- The lines a keystroke commits: the text for Enter, and an empty one for Ctrl-C. -/
def lines (before : Bytes) : Keystroke → List Bytes
  | byte b _ => if b = 0x0d then [before] else if b = 0x03 then [[]] else []
  | alt .. | csi .. | csiParameter .. | ss3 .. => []

/-- What a keystroke shows. Sequences that are not known are shown with a caret for the escape. -/
def echo (before : Bytes) : Keystroke → Bytes
  | byte b _ =>
    if b = 0x0d ∨ b = 0x03 then [0x0d, 0x0a]
    else if b = 0x08 ∨ b = 0x7f then if before = [] then [] else [0x08, 0x20, 0x08]
    else if Fits before b then [b]
    else []
  | alt final _ => ['^'.toUInt8, '['.toUInt8, final]
  | csi final _ =>
    if 'A'.toUInt8 ≤ final ∧ final ≤ 'D'.toUInt8 then []
    else ['^'.toUInt8, '['.toUInt8, '['.toUInt8, final]
  | csiParameter .. => []
  | ss3 final => if final = 'F'.toUInt8 then [] else ['^'.toUInt8, '['.toUInt8, 'O'.toUInt8, final]

def textAll (before : Bytes) : List Keystroke → Bytes
  | [] => before
  | key :: keys => textAll (key.text before) keys

def linesAll (before : Bytes) : List Keystroke → List Bytes
  | [] => []
  | key :: keys => key.lines before ++ linesAll (key.text before) keys

def echoAll (before : Bytes) : List Keystroke → Bytes
  | [] => []
  | key :: keys => key.echo before ++ echoAll (key.text before) keys

/-! ### Keystrokes are a prefix code

The beginnings of sequences are few, and none of them is a keystroke. -/

/-- The bytes that leave a sequence open. -/
inductive Opening : Bytes → Prop where
  | nil : Opening []
  | escape : Opening [escape]
  | csi : Opening [escape, '['.toUInt8]
  | csiParameter {parameter : UInt8} (h : '1'.toUInt8 ≤ parameter ∧ parameter ≤ '6'.toUInt8) :
      Opening [escape, '['.toUInt8, parameter]
  | ss3 : Opening [escape, 'O'.toUInt8]

theorem unfinished_of_opening {start : Bytes} (h : Opening start) : Unfinished encode start := by
  cases h with
  | nil => exact ⟨ss3 0, by simp [encode], by simp [encode]⟩
  | escape => exact ⟨ss3 0, by simp [encode], by simp [encode]⟩
  | csi => exact ⟨csi 0 (by decide), by simp [encode], by simp [encode]⟩
  | csiParameter h => exact ⟨csiParameter _ 0 h, by simp [encode], by simp [encode]⟩
  | ss3 => exact ⟨ss3 0, by simp [encode], by simp [encode]⟩

theorem opening_of_unfinished {start : Bytes} (h : Unfinished encode start) : Opening start := by
  obtain ⟨key, hbegins, hne⟩ := h
  rw [← List.mem_inits] at hbegins
  -- The proper prefixes of a keystroke can be listed, kind by kind.
  cases key with
  | byte b hb =>
    have hstart : start = [] ∨ start = [b] := by simpa [encode] using hbegins
    rcases hstart with rfl | rfl
    · exact .nil
    · exact absurd rfl hne
  | alt final hfinal =>
    have hstart : start = [] ∨ start = [escape] ∨ start = [escape, final] := by
      simpa [encode] using hbegins
    rcases hstart with rfl | rfl | rfl
    · exact .nil
    · exact .escape
    · exact absurd rfl hne
  | csi final hfinal =>
    have hstart : start = [] ∨ start = [escape] ∨ start = [escape, '['.toUInt8] ∨
        start = [escape, '['.toUInt8, final] := by
      simpa [encode] using hbegins
    rcases hstart with rfl | rfl | rfl | rfl
    · exact .nil
    · exact .escape
    · exact .csi
    · exact absurd rfl hne
  | csiParameter parameter final hparameter =>
    have hstart : start = [] ∨ start = [escape] ∨ start = [escape, '['.toUInt8] ∨
        start = [escape, '['.toUInt8, parameter] ∨
        start = [escape, '['.toUInt8, parameter, final] := by
      simpa [encode] using hbegins
    rcases hstart with rfl | rfl | rfl | rfl | rfl
    · exact .nil
    · exact .escape
    · exact .csi
    · exact .csiParameter hparameter
    · exact absurd rfl hne
  | ss3 final =>
    have hstart : start = [] ∨ start = [escape] ∨ start = [escape, 'O'.toUInt8] ∨
        start = [escape, 'O'.toUInt8, final] := by
      simpa [encode] using hbegins
    rcases hstart with rfl | rfl | rfl | rfl
    · exact .nil
    · exact .escape
    · exact .ss3
    · exact absurd rfl hne

/-- Whatever comes behind the beginning of a keystroke completes it or goes on with it. -/
theorem Opening.grows {start : Bytes} (h : Opening start) (b : UInt8) :
    (∃ key, Keystroke.encode key = start ++ [b]) ∨ Opening (start ++ [b]) := by
  cases h with
  | nil =>
    by_cases hb : b = LineEditor.escape
    · exact .inr (hb ▸ .escape)
    · exact .inl ⟨.byte b hb, rfl⟩
  | escape =>
    by_cases hcsi : b = '['.toUInt8
    · exact .inr (hcsi ▸ .csi)
    by_cases hss3 : b = 'O'.toUInt8
    · exact .inr (hss3 ▸ .ss3)
    exact .inl ⟨.alt b ⟨hcsi, hss3⟩, rfl⟩
  | csi =>
    by_cases hparameter : '1'.toUInt8 ≤ b ∧ b ≤ '6'.toUInt8
    · exact .inr (.csiParameter hparameter)
    · exact .inl ⟨.csi b hparameter, rfl⟩
  | csiParameter hparameter => exact .inl ⟨.csiParameter _ b hparameter, rfl⟩
  | ss3 => exact .inl ⟨.ss3 b, rfl⟩

theorem bracket_ne_o : '['.toUInt8 ≠ 'O'.toUInt8 := by decide

theorem encode_injective {key other : Keystroke} (h : key.encode = other.encode) : key = other := by
  cases key with
  | byte b hb => cases other <;> simp_all [encode]
  | alt final hfinal => cases other <;> simp_all [encode]
  | csi final hfinal => cases other <;> simp_all [encode, bracket_ne_o]
  | csiParameter parameter final hparameter => cases other <;> simp_all [encode]
  | ss3 final => cases other <;> simp_all [encode, bracket_ne_o.symm]

/-- The last byte of a keystroke ends it. -/
theorem not_opening (key : Keystroke) : ¬ Opening key.encode := by
  intro h
  generalize hstart : key.encode = start at h
  cases key with
  | byte b hb => cases h <;> simp_all [encode]
  | alt final hfinal => cases h <;> simp_all [encode]
  | csi final hfinal =>
    cases h with
    | csiParameter hparameter =>
      obtain rfl : final = _ := by simpa [encode] using hstart
      exact hfinal hparameter
    | _ => simp_all [encode]
  | csiParameter parameter final hparameter => cases h <;> simp_all [encode]
  | ss3 final => cases h <;> simp_all [encode, bracket_ne_o.symm]

/-- No keystroke begins another one, so it is plain where one ends. -/
theorem encode_prefixFree {key other : Keystroke} (h : key.encode <+: other.encode) :
    key = other := by
  by_cases heq : key.encode = other.encode
  · exact encode_injective heq
  · exact absurd (opening_of_unfinished ⟨other, h, heq⟩) key.not_opening

/-- Keystrokes are a prefix code, so a stream has one cut into them. -/
theorem prefixCode : PrefixCode encode where
  nil := unfinished_of_opening .nil
  prefixFree := encode_prefixFree
  grows h b := ((opening_of_unfinished h).grows b).imp_right unfinished_of_opening

/-! ### What can stand in a text

All of it reads as one character a byte, which is how a committed line becomes a command. -/

structure Typed (text : Bytes) : Prop where
  typable : ∀ b ∈ text, b = 0x09 ∨ 0x20 ≤ b ∧ b ≤ 0x7e
  length_le : text.length ≤ 80

theorem Typed.nil : Typed [] where
  typable := by simp
  length_le := Nat.zero_le 80

/-- Below 128 a byte is its own encoding. -/
theorem utf8EncodeChar_ofUInt8 {b : UInt8} (h : b ≤ 0x7f) :
    String.utf8EncodeChar (Char.ofUInt8 b) = [b] := by
  have hval : (Char.ofUInt8 b).val.toNat = b.toNat := UInt8.toNat_toUInt32 b
  have hle : b.toNat ≤ 0x7f := UInt8.le_iff_toNat_le.mp h
  rw [String.utf8EncodeChar, hval, if_pos hle]
  simp

/-- A typed line is the text that the console reads it as. -/
theorem Typed.utf8_ofBytes {text : Bytes} (h : Typed text) : (Text.ofBytes text).utf8 = text := by
  have hchars : ∀ b ∈ text, String.utf8EncodeChar (Char.ofUInt8 b) = [b] := by
    intro b hb
    apply utf8EncodeChar_ofUInt8
    rcases h.typable b hb with rfl | ⟨-, hle⟩
    · decide
    · exact UInt8.le_trans hle (by decide)
  rw [Text.ofBytes, Text.utf8, List.flatMap_map, List.flatMap_congr hchars]
  simp

theorem text_typed {before : Bytes} (h : Typed before) (key : Keystroke) :
    Typed (key.text before) := by
  cases key with
  | byte b hb =>
    rw [text]
    split
    · exact .nil
    split
    · -- Erasing takes away, and so cannot hurt.
      exact ⟨fun b hb => h.typable b (List.mem_of_mem_dropLast hb),
        (List.dropLast_prefix before).length_le.trans h.length_le⟩
    split
    next hfits =>
      refine ⟨?_, ?_⟩
      · intro found hfound
        rcases List.mem_append.mp hfound with hfound | hfound
        · exact h.typable found hfound
        · exact List.mem_singleton.mp hfound ▸ hfits.1
      · rw [List.length_append]
        exact hfits.2
    · exact h
  | alt => exact h
  | csi => exact h
  | csiParameter => exact h
  | ss3 => exact h

theorem lines_typed {before : Bytes} (h : Typed before) (key : Keystroke) :
    ∀ line ∈ key.lines before, Typed line := by
  cases key with
  | byte b hb =>
    rw [lines]
    split
    · simpa using h
    split
    · simpa using Typed.nil
    · simp
  | alt => simp [lines]
  | csi => simp [lines]
  | csiParameter => simp [lines]
  | ss3 => simp [lines]

theorem typed_of_mem {before : Bytes} (h : Typed before) (keys : List Keystroke) :
    ∀ line ∈ textAll before keys :: linesAll before keys, Typed line := by
  induction keys generalizing before with
  | nil => simpa [textAll, linesAll] using h
  | cons key keys ih =>
    intro line hline
    rw [textAll, linesAll, List.mem_cons, List.mem_append] at hline
    rcases hline with hline | hline | hline
    · exact ih (text_typed h key) line (hline ▸ List.mem_cons_self)
    · exact lines_typed h key line hline
    · exact ih (text_typed h key) line (List.mem_cons_of_mem _ hline)

end Keystroke

namespace LineEditor

/-! ### What the editor does -/

def Transcript.after (echo : Bytes) (lines : List Bytes) (later : Transcript) : Transcript :=
  { later with echo := echo ++ later.echo, lines := lines ++ later.lines }

theorem pressAll_cons (editor : LineEditor) (b : UInt8) (rest : Bytes) :
    editor.pressAll (b :: rest) = ((editor.press b).after.pressAll rest).after
      (editor.press b).echo (editor.press b).committed.toList :=
  rfl

theorem fits_iff (text : Bytes) (b : UInt8) :
    Keystroke.Fits text b ↔ isTypable b ∧ text.length < capacity := by
  rw [isTypable, Bool.or_eq_true, Bool.and_eq_true, decide_eq_true_iff, decide_eq_true_iff,
    decide_eq_true_iff]
  rfl

theorem press_byte (text : Bytes) {b : UInt8} (h : b ≠ escape) :
    (press ⟨text, .plain⟩ b).after = ⟨(Keystroke.byte b h).text text, .plain⟩ ∧
      (press ⟨text, .plain⟩ b).echo = (Keystroke.byte b h).echo text ∧
      (press ⟨text, .plain⟩ b).committed.toList = (Keystroke.byte b h).lines text := by
  by_cases henter : b = 0x0d
  · subst henter
    exact ⟨rfl, rfl, rfl⟩
  by_cases hctrl : b = 0x03
  · subst hctrl
    exact ⟨rfl, rfl, rfl⟩
  by_cases herase : b = 0x08 ∨ b = 0x7f
  · cases text with
    | nil => rcases herase with rfl | rfl <;> exact ⟨rfl, rfl, rfl⟩
    | cons first rest => rcases herase with rfl | rfl <;> exact ⟨rfl, rfl, rfl⟩
  -- No key with a meaning of its own: what remains is to see whether the text takes the byte.
  have hpress : press ⟨text, .plain⟩ b =
      if isTypable b ∧ text.length < capacity then
        { after := { line := text ++ [b] }, echo := [b] }
      else { after := { line := text } } := by
    show pressPlain ⟨text, .plain⟩ b = _
    rw [pressPlain, if_neg (show ¬ b = enter from henter), if_neg (show ¬ b = ctrlC from hctrl),
      if_neg (show ¬ (b = backspace ∨ b = delete) from herase), if_neg h]
  rw [hpress]
  simp only [Keystroke.text, Keystroke.echo, Keystroke.lines, henter, hctrl, herase, fits_iff,
    or_self, if_false]
  split
  · exact ⟨rfl, rfl, rfl⟩
  · exact ⟨rfl, rfl, rfl⟩

/-- The parameter of a sequence leaves no trace, and one more byte is due. -/
theorem press_parameter (text : Bytes) {parameter : UInt8}
    (h : '1'.toUInt8 ≤ parameter ∧ parameter ≤ '6'.toUInt8) :
    press ⟨text, .csi⟩ parameter = { after := ⟨text, .csiParameter⟩ } := by
  have harrow : ¬ ('A'.toUInt8 ≤ parameter ∧ parameter ≤ 'D'.toUInt8) := by
    intro harrow
    have hle : 'A'.toUInt8 ≤ '6'.toUInt8 := UInt8.le_trans harrow.1 h.2
    exact absurd hle (by decide)
  rw [press, if_neg harrow, if_pos h]
  rfl

/-- A sequence in progress shows nothing, and keeps the text. -/
theorem pressAll_opening (text : Bytes) {start : Bytes} (h : Keystroke.Opening start) :
    ∃ keys, pressAll ⟨text, .plain⟩ start = { editor := ⟨text, keys⟩ } ∧
      (keys = .plain ↔ start = []) := by
  cases h with
  | nil => exact ⟨.plain, rfl, by simp⟩
  | escape => exact ⟨.escape, rfl, by simp⟩
  | csi => exact ⟨.csi, rfl, by simp⟩
  | @csiParameter parameter h =>
    refine ⟨.csiParameter, ?_, by simp⟩
    show pressAll ⟨text, .csi⟩ [parameter] = _
    rw [pressAll_cons, press_parameter text h]
    rfl
  | ss3 => exact ⟨.ss3, rfl, by simp⟩

/-- The editor after a whole keystroke, whatever comes next. -/
theorem pressAll_encode (text : Bytes) (key : Keystroke) (tail : Bytes) :
    pressAll ⟨text, .plain⟩ (key.encode ++ tail) =
      (pressAll ⟨key.text text, .plain⟩ tail).after (key.echo text) (key.lines text) := by
  -- The bytes before the last one take the editor from state to state without a trace.
  cases key with
  | byte b h =>
    obtain ⟨hafter, hecho, hlines⟩ := press_byte text h
    show pressAll _ (b :: tail) = _
    rw [pressAll_cons, hafter, hecho, hlines]
  | alt final h =>
    show pressAll ⟨text, .escape⟩ (final :: tail) = _
    rw [pressAll_cons, press, if_neg h.1, if_neg h.2]
    rfl
  | csi final h =>
    show pressAll ⟨text, .csi⟩ (final :: tail) = _
    rw [pressAll_cons, press, if_neg h, Keystroke.echo]
    by_cases harrow : 'A'.toUInt8 ≤ final ∧ final ≤ 'D'.toUInt8
    · rw [if_pos harrow, if_pos harrow]
      rfl
    · rw [if_neg harrow, if_neg harrow]
      rfl
  | csiParameter parameter final h =>
    show pressAll ⟨text, .csi⟩ (parameter :: final :: tail) = _
    rw [pressAll_cons, press_parameter text h]
    rfl
  | ss3 final =>
    show pressAll ⟨text, .ss3⟩ (final :: tail) = _
    rw [pressAll_cons, press, Keystroke.echo]
    by_cases hend : final = 'F'.toUInt8
    · rw [if_pos hend, if_pos hend]
      rfl
    · rw [if_neg hend, if_neg hend]
      rfl

/-- The editor takes whole keystrokes as the keystroke machine does. -/
theorem pressAll_items (text : Bytes) (keys : List Keystroke) (rest : Bytes) :
    pressAll ⟨text, .plain⟩ (keys.flatMap Keystroke.encode ++ rest) =
      (pressAll ⟨Keystroke.textAll text keys, .plain⟩ rest).after
        (Keystroke.echoAll text keys) (Keystroke.linesAll text keys) := by
  induction keys generalizing text with
  | nil => rfl
  | cons key keys ih =>
    rw [List.flatMap_cons, List.append_assoc, pressAll_encode, ih]
    simp [Transcript.after, Keystroke.textAll, Keystroke.echoAll, Keystroke.linesAll]

/-- **The line editor does what the keystrokes do.** A stream of bytes has one cut into keystrokes
and at most one sequence in progress. The lines committed, the text and the echo are those of the
keystrokes, and every text reads as the bytes it is made of. -/
theorem pressAll_keystrokes (stream : Bytes) :
    ∃ cut : Cut Keystroke.encode,
      (∀ other : Cut Keystroke.encode, other.stream = stream ↔ other = cut) ∧
      (pressAll {} stream).lines = Keystroke.linesAll [] cut.items ∧
      (pressAll {} stream).editor.line = Keystroke.textAll [] cut.items ∧
      (pressAll {} stream).echo = Keystroke.echoAll [] cut.items ∧
      ((pressAll {} stream).editor.keys = .plain ↔ cut.rest = []) ∧
      ∀ line ∈ (pressAll {} stream).editor.line :: (pressAll {} stream).lines,
        (Text.ofBytes line).utf8 = line := by
  obtain ⟨cut, hcut⟩ := Keystroke.prefixCode.exists_cut_iff stream
  have hstream : cut.stream = stream := (hcut cut).mpr rfl
  -- The items do all there is to do, and the sequence in progress only moves the state.
  obtain ⟨keys, hrest, hkeys⟩ := pressAll_opening (Keystroke.textAll [] cut.items)
    (Keystroke.opening_of_unfinished cut.unfinished)
  have hpress : pressAll {} stream = { editor := ⟨Keystroke.textAll [] cut.items, keys⟩
                                       echo := Keystroke.echoAll [] cut.items
                                       lines := Keystroke.linesAll [] cut.items } := by
    rw [← hstream, Cut.stream, pressAll_items, hrest]
    simp [Transcript.after]
  rw [hpress]
  refine ⟨cut, hcut, rfl, rfl, rfl, hkeys, ?_⟩
  intro line hline
  exact (Keystroke.typed_of_mem .nil cut.items line hline).utf8_ofBytes

/-- Enter inside a sequence is no Enter, but is shown. -/
example : pressAll {} [0x68, escape, enter, 0x69] =
    { editor := { line := [0x68, 0x69] }, echo := [0x68, 0x5e, 0x5b, 0x0d, 0x69] } := by
  decide

end LineEditor

end DebugMonitor
