import DebugMonitor.Proofs.Station.Beside
import DebugMonitor.Proofs.Station.Turns
import DebugMonitor.Proofs.Station.UartConsole
import DebugMonitor.Proofs.Station.WholeLines

/-!
# Lines that leave no trace

A line that fails, that was cancelled, or that only reads is answered and forgotten. Where all lines
of a text are of this kind and nothing is left in the editor, the text might as well not have been
typed: the chip is as it was, and whatever is done afterwards is done as on a fresh station
(`history_traceless`). All that remains is what was shown: the echo, and behind it for every line
what the command had to say, which is nothing or ends a line, and exactly one prompt.
-/

namespace DebugMonitor

open Sim

namespace Monitor

variable (monitor : Monitor) (chip : Chip)

/-- On this chip the line changes nothing: it asks for no reset and for no bulk mode, and if it asks
for a write, it fails. -/
structure Traceless (line : Bytes) : Prop where
  no_reset : Console.firstToken line ≠ some ("reset" : Text)
  no_bulk : Console.firstToken line ≠ some ("bmo" : Text)
  fails : ∀ width : Width, Console.firstToken line = some (Command.write width).name →
    ∀ after, (monitor.execute (Text.ofBytes line)).handle
      (Station.console monitor.config.layout Station.direct) { chip } ≠ .ok (.ok ()) after

/-- What a fresh monitor on this chip says about a line. -/
def answer (line : Bytes) : Bytes :=
  (finalState <| (monitor.execute (Text.ofBytes line)).handle
    (Station.console monitor.config.layout Station.direct) { chip }).terminal.output

/-- What is shown about a byte: the echo, and if it commits a line, the answer and a prompt, which
is a greater-than sign and a blank. -/
def shownFor (reaction : Reaction) : Bytes :=
  reaction.echo ++ match reaction.committed with
    | some line => monitor.answer chip line ++ [0x3e, 0x20]
    | none => []

/-- What is shown about a text that is typed into an editor. -/
def transcript (editor : LineEditor) : Bytes → Bytes
  | [] => []
  | b :: rest => monitor.shownFor chip (editor.press b) ++ transcript (editor.press b).after rest

variable {monitor chip}

/-! ### One line -/

/-- A line that leaves no trace only looks. -/
theorem Traceless.looking (huart : chip.uart = none) {line : Bytes}
    (h : monitor.Traceless chip line) : Looking (monitor.execute (Text.ofBytes line)) := by
  rcases monitor.execute_looking_or_showing h.no_reset h.no_bulk with
    hlooks | ⟨width, address, value, hname, hshowing⟩
  · exact hlooks
  · -- A write that goes through succeeds.
    obtain ⟨changed, after, -, hafter, -⟩ :=
      Station.handle_showing monitor.config.layout { chip } huart width address value
    exact absurd (hshowing ▸ hafter) (h.fails width hname after)

/-- So the prompt behind the answer stands at the beginning of a line. -/
theorem Traceless.wholeLines_answer (huart : chip.uart = none) {line : Bytes}
    (h : monitor.Traceless chip line) : WholeLines (monitor.answer chip line) := by
  obtain ⟨outcome, said, hruns⟩ := (h.looking huart).runs monitor.config.layout huart
  obtain ⟨after, -, hrun⟩ := hruns { chip } (.refl chip)
  obtain ⟨shown, hlines, hshown⟩ :=
    monitor.showsLines_execute h.no_reset h.no_bulk _ _ _ hrun
  have hanswer : monitor.answer chip line = shown := by
    rw [answer, hrun]
    exact hshown
  rwa [hanswer]

/-- Without good arguments a write fails, wherever it is asked for. -/
theorem handle_refused (monitor : Monitor) (layout : Layout) (station : Station)
    (huart : station.chip.uart = none) {line : Text} {width : Width} {arguments : List Text}
    (htokens : Console.tokens line = (Command.write width).name :: arguments)
    (hrefused : writable width arguments = false) :
    ∃ failure after, (monitor.execute line).handle (Station.console layout Station.direct) station =
      .ok (.error failure) after := by
  obtain ⟨failure, looks, hlooks, hrun⟩ := writeCommand_refused hrefused
  obtain ⟨⟨⟩, shown, hruns⟩ := hlooks.runs layout huart
  obtain ⟨chip, -, hlooked⟩ := hruns station (.refl _)
  refine ⟨failure, ((station.withChip chip).display shown).display failure.report.wire, ?_⟩
  rw [monitor.execute_command htokens, run, hrun, bind_assoc, Program.handle_bind_ok hlooked,
    pure_bind, tell_error, Program.handle_bind_ok (Station.handle_say _ _)]
  rfl

theorem Traceless.of_refused (huart : chip.uart = none) {line : Bytes} {width : Width}
    {arguments : List Text}
    (htokens : Console.tokens (Text.ofBytes line) = (Command.write width).name :: arguments)
    (hrefused : writable width arguments = false) : monitor.Traceless chip line where
  no_reset := by
    rw [Console.firstToken, htokens, List.head?_cons]
    cases width <;> decide
  no_bulk := by
    rw [Console.firstToken, htokens, List.head?_cons]
    cases width <;> decide
  fails := by
    intro _ _ after hafter
    obtain ⟨failure, failed, hfailed⟩ :=
      monitor.handle_refused monitor.config.layout { chip } huart htokens hrefused
    cases hafter.symm.trans hfailed

/-- A line that names neither a write nor anything that leaves the line mode. -/
theorem Traceless.of_harmless {line : Bytes}
    (h : ∀ name ∈ Console.firstToken line,
      name ∉ [("reset" : Text), "bmo", "mwb", "mww"]) : monitor.Traceless chip line where
  no_reset hreset := h _ hreset (by decide)
  no_bulk hbulk := h _ hbulk (by decide)
  fails width hwrite := absurd (h _ hwrite) (by cases width <;> decide)

end Monitor

namespace Sim.Station

variable {monitor : Monitor} {chip : Chip} {station : Station}

/-- A traceless line is answered as on the fresh chip. -/
theorem handle_traceless (huart : chip.uart = none) {line : Bytes}
    (h : monitor.Traceless chip line) (station : Station)
    (hchip : Chip.Recounted station.chip chip) :
    ∃ outcome after, Chip.Recounted after chip ∧
      (monitor.execute (Text.ofBytes line)).handle (console monitor.config.layout direct) station =
        .ok outcome ((station.withChip after).display (monitor.answer chip line)) := by
  obtain ⟨outcome, s, hruns⟩ := (h.looking huart).runs monitor.config.layout huart
  obtain ⟨fresh, -, hfresh⟩ := hruns { chip } (.refl chip)
  have hanswer : monitor.answer chip line = s := by
    rw [Monitor.answer, hfresh]
    exact output_display _ s
  obtain ⟨after, hafter, hrun⟩ := hruns station hchip
  exact ⟨outcome, after, hafter, hanswer ▸ hrun⟩

/-- A byte is taken and shown, and the chip is as it was. -/
theorem poll_traceless (huart : chip.uart = none) (hchip : Chip.Recounted station.chip chip)
    {b : UInt8} {rest : Bytes} (htyped : station.terminal.typed = b :: rest)
    (hlines : ∀ line ∈ (station.editor.press b).committed, monitor.Traceless chip line) :
    ∃ after, Chip.Recounted after chip ∧
      monitor.poll.handle (console monitor.config.layout direct) station =
        .ok () ((((station.withTyped rest).withEditor (station.editor.press b).after).withChip
          after).display (monitor.shownFor chip (station.editor.press b))) := by
  rw [(poll_leadsTo _ monitor htyped).handle_eq, taken_singleton, Monitor.shownFor]
  cases hcommitted : (station.editor.press b).committed with
  | none =>
    refine ⟨station.chip, hchip, ?_⟩
    rw [List.append_nil]
    rfl
  | some line =>
    let echoed := ((station.withTyped rest).withEditor (station.editor.press b).after).display
      (station.editor.press b).echo
    obtain ⟨outcome, after, hafter, hexecute⟩ :=
      handle_traceless huart (hlines line hcommitted) echoed hchip
    refine ⟨after, hafter, ?_⟩
    have hdiscard : (discard (monitor.execute (Text.ofBytes line))).handle
        (console monitor.config.layout direct) echoed =
          .ok () ((echoed.withChip after).display (monitor.answer chip line)) :=
      Program.handle_bind_ok hexecute
    show (answerLine monitor line).handle (console monitor.config.layout direct) echoed = _
    rw [answerLine, Program.handle_bind_ok hdiscard, handle_say, ← display_display,
      ← display_display]
    rfl

end Sim.Station

namespace Sim.Equipment

/-- The site that a sequence of steps leads to. -/
def reach (equipment : Equipment) (site : Site) (steps : List Step) : Site :=
  steps.foldl (fun site step => (equipment.perform site step).2) site

variable {monitor : Monitor} {chip : Chip} (patience : Nat)

/-- A text of traceless lines is polled to its end. -/
theorem polls_traceless (huart : chip.uart = none) {typed : Bytes} (site : Site)
    (hchip : Chip.Recounted site.station.chip chip) (htyped : site.station.terminal.typed = typed)
    (hlines : ∀ line ∈ (site.station.editor.pressAll typed).lines, monitor.Traceless chip line) :
    (∀ entry ∈ (atTerminal monitor patience).history site
        (.replicate typed.length (.work .poll)), entry.outcome = .ok .done) ∧
      ∃ after, Chip.Recounted after chip ∧
        (atTerminal monitor patience).reach site (.replicate typed.length (.work .poll)) =
          { site with
            station := (((site.station.withTyped []).withEditor
              (site.station.editor.pressAll typed).editor).withChip after).display
                (monitor.transcript chip site.station.editor typed) } := by
  induction typed generalizing site with
  | nil =>
    obtain ⟨⟨found, ⟨typed, shown, flushes⟩, editor⟩, session⟩ := site
    obtain rfl : typed = [] := htyped
    exact ⟨fun entry hentry => absurd hentry List.not_mem_nil, found, hchip, rfl⟩
  | cons b rest ih =>
    rw [LineEditor.pressAll_cons] at hlines
    have hfirst : ∀ line ∈ (site.station.editor.press b).committed,
        monitor.Traceless chip line :=
      fun line hline => hlines line (List.mem_append_left _ (Option.mem_toList.mpr hline))
    obtain ⟨middle, hmiddle, hpoll⟩ := Station.poll_traceless huart hchip htyped hfirst
    -- After one byte the chip is the same up to its count, so the hypothesis holds of the rest.
    let between : Site :=
      { site with
        station := (((site.station.withTyped rest).withEditor
          (site.station.editor.press b).after).withChip middle).display
            (monitor.shownFor chip (site.station.editor.press b)) }
    have hperform : (atTerminal monitor patience).perform site (.work .poll) =
        (.ok .done, between) := by
      have hrun : (atTerminal monitor patience).run site (.work .poll) =
          .ok (.done, site.session) between.station := Program.handle_bind_ok hpoll
      rw [perform, hrun]
    have hrest : ∀ line ∈ ((site.station.editor.press b).after.pressAll rest).lines,
        monitor.Traceless chip line :=
      fun line hline => hlines line (List.mem_append_right _ hline)
    obtain ⟨houtcomes, after, hafter, hreach⟩ := ih between hmiddle rfl hrest
    rw [List.length_cons, List.replicate_succ, history_cons, hperform]
    refine ⟨?_, after, hafter, ?_⟩
    · exact List.forall_mem_cons.mpr ⟨rfl, houtcomes⟩
    · rw [reach, List.foldl_cons, hperform, ← reach, hreach, Monitor.transcript,
        LineEditor.pressAll_cons, ← Station.display_display]
      rfl

/-- **Lines that leave no trace.** Where every line of a typed text fails, is cancelled or only
reads, and nothing is left in the editor, the text is polled to its end. Then the chip is as it was
but for the count of page switches, all that was shown is the echo and, for each line, its answer in
whole lines and one prompt, and every sequence of steps from there on is as good as one from a fresh
station. -/
theorem history_traceless (monitor : Monitor) (patience : Nat) (chip : Chip)
    (huart : chip.uart = none) (session : Bulk.Session) (typed : Bytes)
    (hlines : ∀ line ∈ (LineEditor.pressAll {} typed).lines, monitor.Traceless chip line)
    (heditor : (LineEditor.pressAll {} typed).editor = {}) :
    let equipment := atTerminal monitor patience
    let fresh : Site := ⟨{ chip }, session⟩
    let polls : List Step := .device (.type typed) :: .replicate typed.length (.work .poll)
    let used := equipment.reach fresh polls
    (∀ entry ∈ equipment.history fresh polls, entry.outcome = .ok .done) ∧
      Chip.Recounted used.station.chip chip ∧
      used.station.terminal.typed = [] ∧
      used.station.terminal.output = monitor.transcript chip {} typed ∧
      (∀ line ∈ (LineEditor.pressAll {} typed).lines, WholeLines (monitor.answer chip line)) ∧
      ∀ steps : List Step,
        List.Forall₂ (Entry.Beside Chip.Recounted used.station.terminal.shown)
          (equipment.history used steps) (equipment.history fresh steps) := by
  intro equipment fresh polls used
  let typing : Site := ⟨({ chip } : Station).withTyped typed, session⟩
  have hperform : equipment.perform fresh (.device (.type typed)) = (.ok .done, typing) := rfl
  have htyped : typing.station.terminal.typed = typed := rfl
  obtain ⟨houtcomes, after, hafter, hreach⟩ :=
    polls_traceless patience huart typing (.refl chip) htyped hlines
  have hused : used = ⟨(({ chip } : Station).withChip after).display
      (monitor.transcript chip {} typed), session⟩ := by
    show equipment.reach typing (.replicate typed.length (.work .poll)) = _
    rw [hreach]
    show Site.mk (Station.display ⟨after, _, (LineEditor.pressAll {} typed).editor⟩ _) _ = _
    rw [heditor]
    rfl
  refine ⟨?_, ?_, ?_, ?_, ?_, fun steps => ?_⟩
  · rw [history_cons, hperform]
    exact List.forall_mem_cons.mpr ⟨rfl, houtcomes⟩
  · rw [hused]
    exact hafter
  · rw [hused]
    rfl
  · rw [hused]
    exact Station.output_display _ _
  · intro line hline
    exact (hlines line hline).wholeLines_answer huart
  · have hbeside : Site.Beside Chip.Recounted used.station.terminal.shown used fresh := by
      rw [hused]
      exact ⟨⟨hafter, rfl, rfl⟩, rfl⟩
    exact equipment.history_beside (Chip.Recounted.steady _)
      (fun _ => InStep.handle Chip.inStep_bus_recounted _) hbeside

/-- A value that is too large for a byte, a line that is given up halfway, and a look at a byte on
another page. -/
theorem history_traceless_refused :
    let monitor : Monitor := ⟨.ofVariant .asm2142, ⟨[], []⟩, 0⟩
    let chip : Chip := { page := 7 }
    let typed := Text.utf8 "mwb 8 100\rmww 8 1\x03mrb 10020\r"
    (LineEditor.pressAll {} typed).lines =
        [Text.utf8 "mwb 8 100", [], Text.utf8 "mrb 10020"] ∧
      (LineEditor.pressAll {} typed).editor = {} ∧
      let equipment := atTerminal monitor 5
      let fresh : Site := ⟨{ chip }, .start monitor.config.layout⟩
      let used := equipment.reach fresh
        (.device (.type typed) :: .replicate typed.length (.work .poll))
      Chip.Recounted used.station.chip chip ∧
        ∀ steps : List Step,
          List.Forall₂ (Entry.Beside Chip.Recounted used.station.terminal.shown)
            (equipment.history used steps) (equipment.history fresh steps) := by
  intro monitor chip typed
  have htyped : (LineEditor.pressAll {} typed).lines =
      [Text.utf8 "mwb 8 100", [], Text.utf8 "mrb 10020"] := by decide +kernel
  have heditor : (LineEditor.pressAll {} typed).editor = {} := by decide +kernel
  have hlarge : monitor.Traceless chip (Text.utf8 "mwb 8 100") := by
    have htokens : Console.tokens (Console.spaced "mwb" ["8", "100"]) =
        (Command.write .byte).name :: ["8", "100"] :=
      Console.tokens_spaced (by decide) (by decide) (by decide)
    have huart : chip.uart = none := rfl
    exact .of_refused huart htokens (by decide)
  have hread : monitor.Traceless chip (Text.utf8 "mrb 10020") := by
    have htokens : Console.tokens (Console.spaced "mrb" ["10020"]) = ["mrb", "10020"] :=
      Console.tokens_spaced (by decide) (by decide) (by decide)
    refine .of_harmless fun name hname => ?_
    obtain rfl := Option.some.inj ((congrArg List.head? htokens).symm.trans hname)
    decide
  have hblank : monitor.Traceless chip [] := by
    refine .of_harmless fun name hname => ?_
    have hnone : Console.firstToken [] = none :=
      congrArg (List.head? <| List.take Console.maxTokens ·) Console.words_nil
    cases hnone.symm.trans hname
  have hlines : ∀ line ∈ (LineEditor.pressAll {} typed).lines, monitor.Traceless chip line := by
    simp only [htyped, List.forall_mem_cons]
    exact ⟨hlarge, hblank, hread, List.forall_mem_nil _⟩
  obtain ⟨-, hchip, -, -, -, hsteps⟩ :=
    history_traceless monitor 5 chip rfl (.start monitor.config.layout) typed hlines heditor
  exact ⟨htyped, heditor, hchip, hsteps⟩

end Sim.Equipment

end DebugMonitor
