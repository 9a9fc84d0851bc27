import DebugMonitor.Console.Tokens
import DebugMonitor.Proofs.Bulk.Decoding
import DebugMonitor.Proofs.Console.Keystroke

/-!
# The console's input comes in turns

Two readers take turns at one stream of bytes. The line editor reads up to the byte that commits a
line. If that line asks for bulk mode, the bulk session reads items up to an exit, and then it is
the editor's turn again. Each reader has bytes that mean nothing to the other: Enter ends a line but
may be a part of a word, and the letters that begin an item are only letters in a line.

A `Turn` is what they read until the editor starts afresh. Turns are a prefix code, so whatever is
typed can be cut into turns in one way only.
-/

namespace DebugMonitor

open Bulk (Item)

/-- The first token of a committed line, which names the command. -/
def Console.firstToken (line : Bytes) : Option Text :=
  (Console.tokens (Text.ofBytes line)).head?

theorem Console.firstToken_nil : Console.firstToken [] = none := by
  rw [firstToken, tokens, words]
  rfl

namespace LineEditor

/-! ### Commits -/

/-- A fresh editor commits the line with the last of these bytes, and none before. -/
structure Commits (typed line : Bytes) : Prop where
  lines_eq : (pressAll {} typed).lines = [line]
  lines_dropLast : (pressAll {} typed.dropLast).lines = []

theorem pressAll_append (editor : LineEditor) (s t : Bytes) :
    editor.pressAll (s ++ t) = ((editor.pressAll s).editor.pressAll t).after
      (editor.pressAll s).echo (editor.pressAll s).lines := by
  induction s generalizing editor with
  | nil => rfl
  | cons b rest ih =>
    rw [List.cons_append, pressAll_cons, pressAll_cons, ih]
    simp [Transcript.after]

theorem lines_append (editor : LineEditor) (s t : Bytes) :
    (editor.pressAll (s ++ t)).lines =
      (editor.pressAll s).lines ++ ((editor.pressAll s).editor.pressAll t).lines := by
  rw [pressAll_append]
  rfl

/-- The last byte may commit one more line. -/
theorem lines_concat (editor : LineEditor) (s : Bytes) (b : UInt8) :
    (editor.pressAll (s ++ [b])).lines =
      (editor.pressAll s).lines ++ ((editor.pressAll s).editor.press b).committed.toList := by
  rw [lines_append, pressAll_cons]
  simp [pressAll, Transcript.after]

/-- What has been committed stays committed. -/
theorem lines_prefix (editor : LineEditor) {s t : Bytes} (h : s <+: t) :
    (editor.pressAll s).lines <+: (editor.pressAll t).lines := by
  obtain ⟨rest, rfl⟩ := h
  rw [lines_append]
  exact List.prefix_append _ _

/-- The editor is as good as new after every commit. -/
theorem after_of_committed {editor : LineEditor} {b : UInt8} {line : Bytes}
    (h : (editor.press b).committed = some line) : (editor.press b).after = {} := by
  obtain ⟨text, keys⟩ := editor
  -- Only Enter commits a line, and only where no escape sequence is open.
  cases keys with
  | plain =>
    rw [press, pressPlain] at h ⊢
    grind
  | escape =>
    rw [press] at h
    grind [swallow, echoUnknown]
  | csi =>
    rw [press] at h
    grind [swallow, echoUnknown]
  | csiParameter => cases h
  | ss3 =>
    rw [press] at h
    grind [swallow, echoUnknown]

/-- No byte makes a line longer than there is room for. -/
theorem length_press_le {editor : LineEditor} (h : editor.line.length ≤ capacity) (b : UInt8) :
    (editor.press b).after.line.length ≤ capacity := by
  obtain ⟨text, keys⟩ := editor
  cases keys with
  | plain =>
    rw [press, pressPlain]
    grind [capacity]
  | escape =>
    rw [press]
    grind [swallow, echoUnknown]
  | csi =>
    rw [press]
    grind [swallow, echoUnknown]
  | csiParameter => exact h
  | ss3 =>
    rw [press]
    grind [swallow, echoUnknown]

/-- A line within its limit stays there, whatever is typed. -/
theorem length_pressAll_le {editor : LineEditor} (h : editor.line.length ≤ capacity)
    (typed : Bytes) : (editor.pressAll typed).editor.line.length ≤ capacity := by
  induction typed generalizing editor with
  | nil => exact h
  | cons b rest ih => exact ih (length_press_le h b)

/-- A byte commits the first line if nothing was committed before. -/
theorem Commits.of_press {start line : Bytes} {b : UInt8} (hsilent : (pressAll {} start).lines = [])
    (h : ((pressAll {} start).editor.press b).committed = some line) :
    Commits (start ++ [b]) line where
  lines_eq := by
    rw [lines_concat, hsilent, h]
    rfl
  lines_dropLast := by rw [List.dropLast_concat, hsilent]

/-- What commits a line is a text that does not, and one more byte. -/
theorem Commits.exists_press {typed line : Bytes} (h : Commits typed line) :
    ∃ start b, typed = start ++ [b] ∧ (pressAll {} start).lines = [] ∧
      ((pressAll {} start).editor.press b).committed = some line := by
  have hne : typed ≠ [] := by
    rintro rfl
    cases h.lines_eq
  have hlast := List.dropLast_append_getLast hne
  refine ⟨typed.dropLast, typed.getLast hne, hlast.symm, h.lines_dropLast, ?_⟩
  have hlines := h.lines_eq
  rw [← hlast, lines_concat, h.lines_dropLast, List.nil_append] at hlines
  exact Option.toList_eq_singleton_iff.mp hlines

/-- Nothing is committed before the last byte. -/
theorem Commits.lines_eq_nil {typed line : Bytes} (h : Commits typed line) {start : Bytes}
    (hbegins : start <+: typed) (hne : start ≠ typed) : (pressAll {} start).lines = [] := by
  obtain ⟨before, b, rfl, hsilent, -⟩ := h.exists_press
  have hstart : start <+: before := (List.prefix_concat_iff.mp hbegins).resolve_left hne
  exact List.prefix_nil.mp (hsilent ▸ lines_prefix {} hstart)

/-- No text that commits a line is the beginning of another. -/
theorem Commits.eq_of_prefix {typed line other found : Bytes} (h : Commits typed line)
    (h' : Commits other found) (hbegins : typed <+: other) : typed = other ∧ line = found := by
  have heq : typed = other := by
    by_contra hne
    have hlines := h'.lines_eq_nil hbegins hne
    rw [h.lines_eq] at hlines
    cases hlines
  subst heq
  exact ⟨rfl, List.singleton_inj.mp (h.lines_eq.symm.trans h'.lines_eq)⟩

/-- Whatever has been typed, Ctrl-C commits an empty line, after one more byte if a sequence is in
progress. -/
theorem Commits.exists_append {start : Bytes} (h : (pressAll {} start).lines = []) :
    ∃ tail, tail ≠ [] ∧ Commits (start ++ tail) [] := by
  cases heditor : (pressAll {} start).editor with
  | mk text keys =>
    -- Ctrl-C commits an empty line, unless it is taken for the rest of a sequence.
    by_cases hplain : keys = .plain
    · subst hplain
      refine ⟨[ctrlC], List.cons_ne_nil _ _, .of_press h ?_⟩
      rw [heditor]
      rfl
    · -- Whatever the sequence in progress is, a zero byte ends it.
      have hover : (press ⟨text, keys⟩ 0).committed = none ∧
          (press ⟨text, keys⟩ 0).after = ⟨text, .plain⟩ := by
        cases keys with
        | plain => exact absurd rfl hplain
        | escape => exact ⟨rfl, rfl⟩
        | csi => exact ⟨rfl, rfl⟩
        | csiParameter => exact ⟨rfl, rfl⟩
        | ss3 => exact ⟨rfl, rfl⟩
      have hsilent : (pressAll {} (start ++ [0])).lines = [] := by
        rw [lines_concat, h, heditor, hover.1]
        rfl
      have hcommit : ((pressAll {} (start ++ [0])).editor.press ctrlC).committed = some [] := by
        rw [pressAll_append, heditor]
        show ((press ⟨text, keys⟩ 0).after.press ctrlC).committed = some []
        rw [hover.2]
        rfl
      have hcommits := Commits.of_press hsilent hcommit
      rw [List.append_assoc] at hcommits
      exact ⟨[0, ctrlC], List.cons_ne_nil _ _, hcommits⟩

end LineEditor

/-! ### Turns -/

/-- What is typed from a fresh editor on until the next one: a line that is committed, and behind a
line that asks for bulk mode the items up to an exit. -/
inductive Turn where
  | command (typed line : Bytes) (commits : LineEditor.Commits typed line)
      (other : Console.firstToken line ≠ some ("bmo" : Text))
  | transfer (typed line : Bytes) (commits : LineEditor.Commits typed line)
      (bulk : Console.firstToken line = some ("bmo" : Text))
      (items : List Item) (inside : .exit ∉ items)

namespace Turn

def line : Turn → Bytes
  | command _ line _ _ | transfer _ line _ _ _ _ => line

def encode : Turn → Bytes
  | command typed _ _ _ => typed
  | transfer typed _ _ _ items _ => typed ++ (items ++ [Item.exit]).flatMap Item.encode

/-- Whether the line asks for a reset. -/
def Resets (turn : Turn) : Prop := Console.firstToken turn.line = some ("reset" : Text)

def typed : Turn → Bytes
  | command typed _ _ _ | transfer typed _ _ _ _ _ => typed

/-- The typed part of a turn commits its line. -/
theorem commits (turn : Turn) : LineEditor.Commits turn.typed turn.line := by
  cases turn with
  | command typed line commits other => exact commits
  | transfer typed line commits bulk items inside => exact commits

theorem typed_prefix (turn : Turn) : turn.typed <+: turn.encode := by
  cases turn with
  | command typed line commits other => exact List.prefix_rfl
  | transfer typed line commits bulk items inside => exact List.prefix_append typed _

/-- A turn that begins another one has typed the same line. -/
theorem typed_eq {turn other : Turn} (h : turn.encode <+: other.encode) :
    turn.typed = other.typed ∧ turn.line = other.line := by
  rcases List.prefix_or_prefix_of_prefix (turn.typed_prefix.trans h) other.typed_prefix
    with hle | hle
  · exact turn.commits.eq_of_prefix other.commits hle
  · obtain ⟨htyped, hline⟩ := other.commits.eq_of_prefix turn.commits hle
    exact ⟨htyped.symm, hline.symm⟩

theorem encode_prefixFree {turn other : Turn} (h : turn.encode <+: other.encode) :
    turn = other := by
  obtain ⟨htyped, hline⟩ := typed_eq h
  cases turn with
  | command typed line commits command =>
    cases other with
    | command found text _ _ =>
      obtain rfl : typed = found := htyped
      obtain rfl : line = text := hline
      rfl
    | transfer found text _ bulk _ _ =>
      obtain rfl : line = text := hline
      exact absurd bulk command
  | transfer typed line commits bulk items inside =>
    cases other with
    | command found text _ command =>
      obtain rfl : line = text := hline
      exact absurd bulk command
    | transfer found text _ _ others apart =>
      obtain rfl : typed = found := htyped
      obtain rfl : line = text := hline
      -- Both end with their only exit, so neither goes on behind the other.
      have hitems : items ++ [Item.exit] <+: others ++ [Item.exit] :=
        Bulk.prefixCode.prefix_of_flatMap_prefix ((List.prefix_append_right_inj typed).mp h)
      rcases List.prefix_concat_iff.mp hitems with heq | hinside
      · obtain rfl : items = others := List.append_cancel_right heq
        rfl
      · have hmem := List.mem_append_right items (List.mem_singleton_self Item.exit)
        exact absurd (hinside.subset hmem) apart

/-! ### Beginnings -/

/-- The beginning of a turn is a text that commits nothing, or goes on behind a line that asks for
bulk mode, with no exit yet. -/
inductive Opening : Bytes → Prop where
  | typing {start : Bytes} (silent : (LineEditor.pressAll {} start).lines = []) : Opening start
  | serving {typed line : Bytes} (commits : LineEditor.Commits typed line)
      (bulk : Console.firstToken line = some ("bmo" : Text))
      {items : List Item} (inside : .exit ∉ items)
      {rest : Bytes} (unfinished : Unfinished Item.encode rest) :
      Opening (typed ++ (items.flatMap Item.encode ++ rest))

theorem unfinished_of_opening {start : Bytes} (h : Opening start) : Unfinished encode start := by
  cases h with
  | typing hsilent =>
    obtain ⟨tail, hne, hcommits⟩ := LineEditor.Commits.exists_append hsilent
    refine ⟨.command (start ++ tail) [] hcommits (by simp [Console.firstToken_nil]),
      List.prefix_append start tail, ?_⟩
    exact fun heq => hne (List.append_right_eq_self.mp heq.symm)
  | @serving typed line hcommits hbulk items hinside rest hrest =>
    obtain ⟨item, hbegins, hne⟩ := hrest
    have hlength : rest.length < item.encode.length :=
      lt_of_le_of_ne hbegins.length_le fun heq => hne (hbegins.eq_of_length heq)
    -- The item that has begun is completed, and an exit comes behind it unless it is one.
    have hturn : ∃ turn : Turn, ∃ tail,
        turn.encode = typed ++ (items.flatMap Item.encode ++ (item.encode ++ tail)) := by
      by_cases hexit : item = .exit
      · refine ⟨.transfer typed line hcommits hbulk items hinside, [], ?_⟩
        simp [encode, hexit]
      · have hinside' : Item.exit ∉ items ++ [item] := by
          simp [hinside, Ne.symm hexit]
        refine ⟨.transfer typed line hcommits hbulk (items ++ [item]) hinside',
          Item.exit.encode, ?_⟩
        simp [encode]
    obtain ⟨turn, tail, hencode⟩ := hturn
    refine ⟨turn, ?_, ?_⟩
    · rw [hencode, List.prefix_append_right_inj, List.prefix_append_right_inj]
      exact hbegins.trans (List.prefix_append _ tail)
    · intro heq
      have hlen := congrArg List.length (heq.trans hencode)
      simp only [List.length_append] at hlen
      omega

theorem opening_of_unfinished {start : Bytes} (h : Unfinished encode start) : Opening start := by
  obtain ⟨turn, hbegins, hne⟩ := h
  cases turn with
  | command typed line hcommits _ => exact .typing (hcommits.lines_eq_nil hbegins hne)
  | transfer typed line hcommits hbulk items hinside =>
    -- The start ends inside the typed line or behind it.
    rcases List.prefix_or_prefix_of_prefix hbegins (List.prefix_append typed _) with hle | hle
    · by_cases heq : start = typed
      · subst heq
        have hopening := Opening.serving hcommits hbulk List.not_mem_nil Bulk.prefixCode.nil
        simpa using hopening
      · exact .typing (hcommits.lines_eq_nil hle heq)
    · obtain ⟨behind, rfl⟩ := hle
      rw [encode, List.prefix_append_right_inj] at hbegins
      obtain ⟨cut, rfl⟩ := Bulk.prefixCode.exists_cut behind
      have hitems : cut.items <+: items ++ [Item.exit] :=
        Bulk.prefixCode.prefix_of_flatMap_prefix ((List.prefix_append _ cut.rest).trans hbegins)
      rcases List.prefix_concat_iff.mp hitems with hall | hbefore
      · -- With the exit there would be nothing left to come.
        have hwhole : cut.stream = (items ++ [Item.exit]).flatMap Item.encode := by
          apply hbegins.eq_of_length_le
          rw [Cut.stream, hall, List.length_append]
          exact Nat.le_add_right _ _
        exact absurd (congrArg (typed ++ ·) hwhole) hne
      · exact .serving hcommits hbulk (fun hmem => hinside (hbefore.subset hmem)) cut.unfinished

/-- One more byte commits a line, or completes an item, or changes nothing. -/
theorem Opening.grows {start : Bytes} (h : Opening start) (b : UInt8) :
    (∃ turn : Turn, turn.encode = start ++ [b]) ∨ Opening (start ++ [b]) := by
  cases h with
  | typing hsilent =>
    -- The byte leaves the line open, or commits it. A line for bulk mode is only the beginning of
    -- its turn.
    cases hcommitted : ((LineEditor.pressAll {} start).editor.press b).committed with
    | none =>
      right
      apply Opening.typing
      rw [LineEditor.lines_concat, hsilent, hcommitted]
      rfl
    | some line =>
      have hcommits := LineEditor.Commits.of_press hsilent hcommitted
      by_cases hbulk : Console.firstToken line = some ("bmo" : Text)
      · have hopening := Opening.serving hcommits hbulk List.not_mem_nil Bulk.prefixCode.nil
        right
        simpa using hopening
      · exact .inl ⟨.command _ line hcommits hbulk, rfl⟩
  | @serving typed line hcommits hbulk items hinside rest hrest =>
    -- The byte completes an item or goes on with it, and an exit completes the turn.
    rcases Bulk.prefixCode.grows hrest b with ⟨item, hitem⟩ | hgrown
    · by_cases hexit : item = .exit
      · left
        refine ⟨.transfer typed line hcommits hbulk items hinside, ?_⟩
        simp [encode, ← hexit, hitem]
      · have hinside' : Item.exit ∉ items ++ [item] := by
          simp [hinside, Ne.symm hexit]
        have hopening := Opening.serving hcommits hbulk hinside' Bulk.prefixCode.nil
        right
        simpa [hitem] using hopening
    · have hopening := Opening.serving hcommits hbulk hinside hgrown
      right
      simpa using hopening

/-- **Every input can be cut into turns,** and in one way only. -/
theorem prefixCode : PrefixCode encode where
  nil := unfinished_of_opening (.typing rfl)
  prefixFree := encode_prefixFree
  grows h b := ((opening_of_unfinished h).grows b).imp_right unfinished_of_opening

end Turn

end DebugMonitor
