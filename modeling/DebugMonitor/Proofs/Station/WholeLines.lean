import DebugMonitor.Proofs.Console.Refusal
import DebugMonitor.Proofs.Station.Looking

/-!
# Answers in whole lines

The prompt stands at the beginning of a line, and so does the echo of what is typed next to it. That
is because a command that returns to the prompt has said nothing, or has ended the line that it was
on: every report ends a line, and so do the line about a value and the two longer answers. A chip
without commands in progress is all that is asked for, so none of this depends on what was read.

Resets are left out, since there is no prompt after them, and so is bulk mode, in which the bytes on
the wire are no text.
-/

namespace DebugMonitor

open Sim

variable {α β : Type}

/-! ### Lines -/

/-- Nothing was sent, or the last thing that was sent is the end of a line. -/
def WholeLines (bytes : Bytes) : Prop := bytes = [] ∨ ∃ front, bytes = front ++ [0x0d, 0x0a]

theorem WholeLines.append {s t : Bytes} (hs : WholeLines s) (ht : WholeLines t) :
    WholeLines (s ++ t) := by
  rcases ht with rfl | ⟨front, rfl⟩
  · rwa [List.append_nil]
  · exact .inr ⟨s ++ front, (List.append_assoc s front _).symm⟩

/-- A text that ends a line. -/
def Text.EndsLine (text : Text) : Prop := ∃ front : Text, text = front ++ "\n"

namespace Text.EndsLine

theorem line (front : Text) : EndsLine (front ++ "\n") := ⟨front, rfl⟩

/-- A text ends a line if its last part does. -/
theorem behind (s : Text) {t : Text} (h : EndsLine t) : EndsLine (s ++ t) := by
  obtain ⟨front, rfl⟩ := h
  rw [← List.append_assoc]
  exact line (s ++ front)

/-- What comes behind the end of a line may be missing, but must end a line as well. -/
theorem append {s t : Text} (hs : EndsLine s) (ht : t = [] ∨ EndsLine t) : EndsLine (s ++ t) := by
  rcases ht with rfl | ht
  · rwa [List.append_nil]
  · exact ht.behind s

/-- It ends it on the wire as well. -/
theorem wholeLines {text : Text} (h : EndsLine text) : WholeLines text.wire := by
  obtain ⟨front, rfl⟩ := h
  right
  refine ⟨Text.wire front, ?_⟩
  rw [Text.wire_append]
  rfl

end Text.EndsLine

namespace Sim.Station

variable {layout : Layout}

/-- Wherever the station stands, a run that returns has shown whole lines. -/
def ShowsLines (layout : Layout) (p : Program Console α) : Prop :=
  ∀ (before after : Station) (a : α), p.handle (console layout direct) before = .ok a after →
    ∃ shown, WholeLines shown ∧ after.terminal.output = before.terminal.output ++ shown

namespace ShowsLines

theorem pure (a : α) : ShowsLines layout (Pure.pure a : Program Console α) := by
  intro before after result hrun
  cases hrun
  exact ⟨[], .inl rfl, (List.append_nil _).symm⟩

/-- Parts that show whole lines do so together. -/
theorem bind {p : Program Console α} {f : α → Program Console β} (hp : ShowsLines layout p)
    (hf : ∀ a, ShowsLines layout (f a)) : ShowsLines layout (p >>= f) := by
  intro before after b hrun
  obtain ⟨a, middle, hfirst, hsecond⟩ := Program.handle_bind_eq_ok hrun
  obtain ⟨first, hfirstLines, hmiddle⟩ := hp _ _ _ hfirst
  obtain ⟨second, hsecondLines, hafter⟩ := hf a _ _ _ hsecond
  refine ⟨first ++ second, hfirstLines.append hsecondLines, ?_⟩
  rw [hafter, hmiddle, List.append_assoc]

/-- An access to the memory shows nothing. -/
theorem memory (p : Program Memory α) : ShowsLines layout (Console.memory p) := by
  intro before after a hrun
  rw [handle_memory, onChip_apply] at hrun
  cases hp : p.handle (Chip.memory layout) before.chip with
  | ok result chip =>
    rw [hp] at hrun
    cases hrun
    exact ⟨[], .inl rfl, (List.append_nil _).symm⟩
  | error stop chip =>
    rw [hp] at hrun
    cases hrun

theorem say {text : Text} (h : text.EndsLine) : ShowsLines layout (Console.say text) := by
  intro before after a hrun
  rw [handle_say] at hrun
  cases hrun
  exact ⟨text.wire, h.wholeLines, output_display before text.wire⟩

end ShowsLines

end Sim.Station

/-! ### Texts of the console -/

namespace Monitor

/-- Every report of a failure ends its line, with the usage or without. -/
theorem endsLine_report (failure : Failure) : failure.report.EndsLine := by
  refine (Text.EndsLine.line _).append ?_
  cases failure with
  | tooFewArguments command => exact .inr (.line _)
  | _ => exact .inl rfl

theorem endsLine_valueLine (width : Width) (address value : UInt32) :
    (valueLine width address value).EndsLine :=
  .line _

theorem endsLine_helpText : helpText.EndsLine := ⟨helpText.dropLast, by decide⟩

theorem endsLine_versionText (monitor : Monitor) (version : Option UInt8) (mhz : Option UInt32) :
    (monitor.versionText version mhz).EndsLine := by
  refine ((Text.EndsLine.line _).append ?_).append ?_
  · cases version with
    | none => exact .inl rfl
    | some version => exact .inr (.line _)
  · cases mhz with
    | none => exact .inl rfl
    | some mhz => exact .inr (.behind _ ⟨" MHz", rfl⟩)

/-! ### Commands -/

open Sim.Station

variable {layout : Layout}

theorem showsLines_showValue (width : Width) (address : UInt32) :
    ShowsLines layout (showValue width address) :=
  .bind (.memory _) fun value => .say (endsLine_valueLine width address value)

theorem showsLines_tell (outcome : Except Failure Unit) : ShowsLines layout (tell outcome) := by
  cases outcome with
  | ok done => exact .pure _
  | error failure =>
    rw [tell_error]
    exact .bind (.say (endsLine_report failure)) fun _ => .pure _

/-- A write shows two lines. -/
theorem showsLines_showing (width : Width) (address value : UInt32) :
    ShowsLines layout (showing width address value) := by
  refine .bind (showsLines_showValue width address) fun _ => ?_
  refine .bind (.memory _) fun _ => ?_
  exact .bind (showsLines_showValue width address) fun _ => .pure _

theorem showsLines_showVersion (monitor : Monitor) : ShowsLines layout monitor.showVersion :=
  .bind (.memory _) fun version => .bind (.memory _) fun mhz =>
    .say (monitor.endsLine_versionText version mhz)

/-- **Answers end their lines.** What a line has to say comes in whole lines, unless it is for a
reset or for bulk mode. -/
theorem showsLines_execute (monitor : Monitor) {line : Text}
    (hreset : (Console.tokens line).head? ≠ some ("reset" : Text))
    (hbulk : (Console.tokens line).head? ≠ some ("bmo" : Text)) :
    ShowsLines layout (monitor.execute line) := by
  -- The verdict on the line tells what is said, part by part.
  cases verdict (Console.tokens line) with
  | blank htokens =>
    rw [monitor.execute_blank htokens]
    exact .pure _
  | refused hrefused =>
    rw [execute_refused hrefused]
    exact showsLines_tell _
  | refusedValue hrefused =>
    rw [execute_refusedValue hrefused]
    exact .bind (showsLines_showValue _ _) fun _ => showsLines_tell _
  | read htokens htext hrange =>
    rw [execute_of_read htokens htext hrange]
    exact .bind (showsLines_showValue _ _) fun _ => .pure _
  | write htokens htext hrange hvalue hholds =>
    rw [execute_of_write htokens htext hrange hvalue hholds]
    exact showsLines_showing _ _ _
  | @other command arguments htokens hfree =>
    rw [htokens] at hreset hbulk
    rw [monitor.execute_command htokens]
    cases command with
    | read width => cases hfree
    | write width => cases hfree
    | help => exact .bind (.bind (.say endsLine_helpText) fun _ => .pure _) showsLines_tell
    | version =>
      exact .bind (.bind (showsLines_showVersion monitor) fun _ => .pure _) showsLines_tell
    | reset => exact absurd rfl hreset
    | bulk => exact absurd rfl hbulk

end Monitor

end DebugMonitor
