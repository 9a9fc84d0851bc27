import DebugMonitor.Proofs.Console.Execution
import DebugMonitor.Proofs.Console.Turn
import DebugMonitor.Proofs.Station.BulkServing
import DebugMonitor.Proofs.Station.LeadsTo

/-!
# Serving the console turn by turn

At a terminal the monitor goes through its input turn by turn, until a line asks for a reset or the
input is used up; nothing else can end it (`serve_turns`). That it follows the cut is shown from the
inside out: what a line does, then a turn, and then the turns one after the other.
-/

namespace DebugMonitor

open Bulk (Item Session)

/-! ### Lines -/

namespace Sim.Station

variable {layout : Layout} {station : Station} (monitor : Monitor)

/-- A command that is neither for bulk mode nor for a reset takes no input, and returns. -/
theorem quiet_execute {line : Bytes} (hbulk : Console.firstToken line ≠ some ("bmo" : Text))
    (hreset : Console.firstToken line ≠ some ("reset" : Text)) :
    Quiet (monitor.execute (Text.ofBytes line)) := by
  rcases monitor.execute_looking_or_showing hreset hbulk with
    hlooks | ⟨width, address, value, -, hshowing⟩
  · exact hlooks.quiet
  · exact hshowing ▸ Quiet.showing width address value

/-- The station after a flush. -/
def flush (station : Station) : Station :=
  station.withTerminal { station.terminal with flushes := station.terminal.flushes + 1 }

theorem handle_flush (station : Station) :
    Console.flush.handle (console layout direct) station = .ok () station.flush := rfl

/-- The station that is left. -/
def left (station : Station) (text : Text) (chip : Chip) : Station :=
  (station.display text.wire).flush.withChip chip

theorem unmoved_left (station : Station) (text : Text) (chip : Chip) :
    Unmoved station (station.left text chip) := ⟨rfl, rfl⟩

/-- The way out ends with the chip halted. -/
theorem handle_leave {α : Type} (text : Text) {requests : Program Memory Unit} {chip : Chip}
    (h : requests.handle (Chip.memory layout) station.chip = .ok () chip) :
    (Console.leave text requests : Program Console α).handle (console layout direct) station =
      .error .halted (station.left text chip) := by
  have hmemory := handle_memory_ok (station.display text.wire).flush h
  rw [Console.leave, Program.handle_bind_ok (handle_say text station),
    Program.handle_bind_ok (handle_flush _), Program.handle_bind_ok hmemory]
  rfl

/-- A reset is announced, and then the chip is halted. -/
theorem handle_reset {α : Type} (toRom : Bool) (station : Station) :
    ∃ after, (monitor.reset toRom : Program Console α).handle (console layout direct) station =
      .error .halted after ∧ Unmoved station after := by
  obtain ⟨⟨⟩, chip, hrequests⟩ := (monitor.resetRequests_within toRom).returns
    (fun request _ => Chip.memory_answers layout request) station.chip
  rw [Monitor.reset_eq]
  exact ⟨_, handle_leave _ hrequests, unmoved_left station _ chip⟩

/-- A reset halts the chip, and the input behind its line is left alone. -/
theorem execute_reset {line : Text} {arguments : List Text}
    (h : Console.tokens line = ("reset" : Text) :: arguments) (station : Station) :
    ∃ after, (monitor.execute line).handle (console layout direct) station =
      .error .halted after ∧ Unmoved station after := by
  rw [monitor.execute_of_reset h]
  exact handle_reset monitor _ station

theorem execute_bulk {line : Text} {arguments : List Text}
    (h : Console.tokens line = ("bmo" : Text) :: arguments) :
    monitor.execute line = monitor.serveBulk >>= fun _ => pure (.ok ()) := by
  have hname : Command.ofName? ("bmo" : Text) = some .bulk := by decide
  have hrun : (monitor.run .bulk arguments).run =
      monitor.serveBulk >>= fun done => pure (.ok done) :=
    Program.run_liftM _
  rw [Monitor.execute, h]
  simp only [hname]
  rw [hrun, bind_assoc]
  rfl

/-- A session that is served until its exit takes the items up to there. -/
theorem handle_serveBulk {items : List Item} (hinside : Item.exit ∉ items) {tail : Bytes}
    (htyped : station.terminal.typed = (items ++ [Item.exit]).flatMap Item.encode ++ tail)
    (hpatience : station.terminal.typed.length < monitor.patience) :
    ∃ after, monitor.serveBulk.handle (console layout direct) station = .ok () after ∧
      after.terminal.typed = tail ∧ after.editor = station.editor := by
  obtain ⟨⟨⟩, said, hsay, hsaid⟩ := (Quiet.say "OK\n").returns layout station
  rw [← hsaid.typed_eq] at htyped hpatience
  obtain ⟨after, hserve, htail, heditor⟩ :=
    serve_exit monitor.config.layout hinside htyped hpatience
  exact ⟨after, (Program.handle_bind_ok hsay).trans hserve, htail, heditor.trans hsaid.editor_eq⟩

/-- A session that is cut off uses up the input. -/
theorem handle_serveBulk_exhausted {items : List Item} (hinside : Item.exit ∉ items) {rest : Bytes}
    (hrest : Unfinished Item.encode rest)
    (htyped : station.terminal.typed = items.flatMap Item.encode ++ rest)
    (hpatience : station.terminal.typed.length < monitor.patience) :
    ∃ after, monitor.serveBulk.handle (console layout direct) station =
      .error .inputExhausted after ∧ after.terminal.typed = [] := by
  obtain ⟨⟨⟩, said, hsay, hsaid⟩ := (Quiet.say "OK\n").returns layout station
  rw [← hsaid.typed_eq] at htyped hpatience
  obtain ⟨after, hserve, hused⟩ :=
    serve_exhausted monitor.config.layout hinside hrest htyped hpatience
  exact ⟨after, (Program.handle_bind_ok hsay).trans hserve, hused⟩

/-- A line that was executed is answered, and a prompt follows. -/
theorem answer_ok {line : Bytes} {middle : Station} {outcome : Except Failure Unit}
    (h : (monitor.execute (Text.ofBytes line)).handle (console layout direct) station =
      .ok outcome middle) :
    ∃ after, (answerLine monitor line).handle (console layout direct) station = .ok () after ∧
      Unmoved middle after := by
  obtain ⟨⟨⟩, after, hprompt, hafter⟩ := (Quiet.say Monitor.prompt).returns layout middle
  have hdiscard : (discard (monitor.execute (Text.ofBytes line))).handle (console layout direct)
      station = .ok () middle :=
    Program.handle_bind_ok h
  exact ⟨after, (Program.handle_bind_ok hdiscard).trans hprompt, hafter⟩

/-- A line that stops the monitor is not answered. -/
theorem answer_error {line : Bytes} {after : Station} {stop : Stop}
    (h : (monitor.execute (Text.ofBytes line)).handle (console layout direct) station =
      .error stop after) :
    (answerLine monitor line).handle (console layout direct) station = .error stop after := by
  have hdiscard : (discard (monitor.execute (Text.ofBytes line))).handle (console layout direct)
      station = .error stop after :=
    Program.handle_bind_error h
  exact Program.handle_bind_error hdiscard

/-! ### Turns -/

/-- How a run ends on turns and the beginning of one more: it uses up the input, or it halts at the
first line that asks for a reset, with everything behind that line unread. -/
inductive Ended {α : Type} (turns : List Turn) (rest : Bytes) :
    EStateM.Result Stop Station α → Prop where
  | exhausted {after : Station} (going : ∀ turn ∈ turns, ¬ turn.Resets)
      (used : after.terminal.typed = []) :
    Ended turns rest (.error .inputExhausted after)
  | halted {after : Station} {before later : List Turn} {turn : Turn}
      (turns_eq : turns = before ++ turn :: later) (going : ∀ turn ∈ before, ¬ turn.Resets)
      (resets : turn.Resets)
      (unread : after.terminal.typed = later.flatMap Turn.encode ++ rest) :
    Ended turns rest (.error .halted after)

theorem Ended.cons {α : Type} {turn : Turn} {turns : List Turn} {rest : Bytes}
    {result : EStateM.Result Stop Station α} (hturn : ¬ turn.Resets) (h : Ended turns rest result) :
    Ended (turn :: turns) rest result := by
  cases h with
  | exhausted hgoing hused => exact .exhausted (List.forall_mem_cons.mpr ⟨hturn, hgoing⟩) hused
  | @halted after before later found hturns hgoing hresets hunread =>
    have hcons : turn :: turns = (turn :: before) ++ found :: later := by
      rw [hturns]
      rfl
    exact .halted hcons (List.forall_mem_cons.mpr ⟨hturn, hgoing⟩) hresets hunread

/-- The line of a turn that asks for a reset is the last one answered. -/
theorem pollForever_reset (α : Type) {turn : Turn} (hturn : turn.Resets) {rest : Bytes}
    (heditor : station.editor = {}) (htyped : station.terminal.typed = turn.encode ++ rest) :
    ∃ after, after.terminal.typed = rest ∧
      ∀ patience, (monitor.pollForever (turn.typed.length + patience) : Program Console α).handle
        (console layout direct) station = .error .halted after := by
  cases turn with
  | command typed line commits other =>
    obtain ⟨arguments, htokens⟩ := List.head?_eq_some_iff.mp hturn
    obtain ⟨after, hexecute, hafter⟩ := execute_reset monitor htokens (station.taken typed rest)
    refine ⟨after, hafter.typed_eq, fun patience => ?_⟩
    refine (pollForever_committed monitor commits heditor htyped patience).handle_eq.trans ?_
    exact Program.handle_bind_error (answer_error monitor hexecute)
  | transfer typed line commits bulk items inside =>
    have hnames : some ("bmo" : Text) = some ("reset" : Text) := bulk.symm.trans hturn
    exact absurd hnames (by decide)

/-- The line of any other turn is answered, and the editor starts afresh behind the turn. -/
theorem pollForever_going (α : Type) {turn : Turn} (hturn : ¬ turn.Resets) {rest : Bytes}
    (heditor : station.editor = {}) (htyped : station.terminal.typed = turn.encode ++ rest)
    (hpatience : station.terminal.typed.length < monitor.patience) :
    ∃ after, after.terminal.typed = rest ∧ after.editor = {} ∧
      ∀ patience, (monitor.pollForever (turn.typed.length + patience) : Program Console α).handle
          (console layout direct) station =
        (monitor.pollForever patience : Program Console α).handle
          (console layout direct) after := by
  cases turn with
  | command typed line commits other =>
    obtain ⟨outcome, executed, hexecute, hexecuted⟩ :=
      (quiet_execute monitor other hturn).returns layout (station.taken typed rest)
    obtain ⟨after, hanswer, hafter⟩ := answer_ok monitor hexecute
    -- Neither the command nor its answer touches what is still to be typed.
    have hunmoved := hexecuted.trans hafter
    have hfresh := editor_taken commits heditor rest
    refine ⟨after, hunmoved.typed_eq, hunmoved.editor_eq.trans hfresh, fun patience => ?_⟩
    refine (pollForever_committed monitor commits heditor htyped patience).handle_eq.trans ?_
    exact Program.handle_bind_ok hanswer
  | transfer typed line commits bulk items inside =>
    rw [Turn.encode, List.append_assoc] at htyped
    let middle := station.taken typed ((items ++ [Item.exit]).flatMap Item.encode ++ rest)
    -- The items are fewer than the patience, which counts all of the input.
    have hshorter : middle.terminal.typed.length < monitor.patience := by
      rw [htyped, List.length_append] at hpatience
      exact Nat.lt_of_add_left_lt hpatience
    obtain ⟨arguments, htokens⟩ := List.head?_eq_some_iff.mp bulk
    have hmiddle : middle.terminal.typed = (items ++ [Item.exit]).flatMap Item.encode ++ rest := rfl
    obtain ⟨served, hserve, htail, hserved⟩ := handle_serveBulk monitor inside hmiddle hshorter
    have hexecute : (monitor.execute (Text.ofBytes line)).handle (console layout direct) middle =
        .ok (.ok ()) served := by
      rw [execute_bulk monitor htokens]
      exact Program.handle_bind_ok hserve
    obtain ⟨after, hanswer, hafter⟩ := answer_ok monitor hexecute
    have hfresh : middle.editor = {} := editor_taken commits heditor _
    refine ⟨after, hafter.typed_eq.trans htail,
      hafter.editor_eq.trans (hserved.trans hfresh), fun patience => ?_⟩
    refine (pollForever_committed monitor commits heditor htyped patience).handle_eq.trans ?_
    exact Program.handle_bind_ok hanswer

/-- What is left when no turn is complete is used up. -/
theorem pollForever_opening (α : Type) {start : Bytes} (h : Turn.Opening start)
    (heditor : station.editor = {}) (htyped : station.terminal.typed = start)
    (hpatience : start.length < monitor.patience) {patience : Nat}
    (hrounds : start.length < patience) :
    ∃ after, (monitor.pollForever patience : Program Console α).handle (console layout direct)
      station = .error .inputExhausted after ∧ after.terminal.typed = [] := by
  cases h with
  | typing hsilent =>
    obtain ⟨patience, rfl⟩ := Nat.exists_eq_add_of_lt hrounds
    rw [← heditor] at hsilent
    rw [← List.append_nil start] at htyped
    refine ⟨station.taken start [], ?_, rfl⟩
    rw [Nat.add_assoc, (pollForever_silent monitor hsilent htyped (patience + 1)).handle_eq,
      pollForever_exhausted monitor rfl]
  | @serving typed line commits bulk items inside rest unfinished =>
    let middle := station.taken typed (items.flatMap Item.encode ++ rest)
    rw [List.length_append] at hpatience hrounds
    obtain ⟨patience, rfl⟩ := Nat.exists_eq_add_of_le
      ((Nat.le_add_right typed.length _).trans hrounds.le)
    have hshorter : middle.terminal.typed.length < monitor.patience :=
      Nat.lt_of_add_left_lt hpatience
    obtain ⟨arguments, htokens⟩ := List.head?_eq_some_iff.mp bulk
    have hmiddle : middle.terminal.typed = items.flatMap Item.encode ++ rest := rfl
    obtain ⟨after, hserve, hused⟩ :=
      handle_serveBulk_exhausted monitor inside unfinished hmiddle hshorter
    -- The session runs out of input, and so does everything around it.
    have hexecute : (monitor.execute (Text.ofBytes line)).handle (console layout direct) middle =
        .error .inputExhausted after := by
      rw [execute_bulk monitor htokens]
      exact Program.handle_bind_error hserve
    refine ⟨after, ?_, hused⟩
    refine (pollForever_committed monitor commits heditor htyped patience).handle_eq.trans ?_
    exact Program.handle_bind_error (answer_error monitor hexecute)

/-- The loop goes through the turns in order, and each pays for its bytes out of the patience. -/
theorem pollForever_turns {α : Type} {turns : List Turn} {rest : Bytes}
    (hrest : Unfinished Turn.encode rest) (heditor : station.editor = {})
    (htyped : station.terminal.typed = turns.flatMap Turn.encode ++ rest)
    (hpatience : station.terminal.typed.length < monitor.patience) {patience : Nat}
    (hrounds : station.terminal.typed.length < patience) :
    Ended turns rest ((monitor.pollForever patience : Program Console α).handle
      (console layout direct) station) := by
  -- By induction on the turns: each one pays for its own bytes, and leaves the rest of the patience
  -- to the others.
  induction turns generalizing station patience with
  | nil =>
    rw [htyped] at hpatience hrounds
    obtain ⟨after, hexhausted, hused⟩ := pollForever_opening monitor α
      (Turn.opening_of_unfinished hrest) heditor htyped hpatience hrounds
    rw [hexhausted]
    exact .exhausted (List.forall_mem_nil _) hused
  | cons turn turns ih =>
    rw [List.flatMap_cons, List.append_assoc] at htyped
    have hlength : turn.typed.length + (turns.flatMap Turn.encode ++ rest).length ≤
        station.terminal.typed.length := by
      have hle := turn.typed_prefix.length_le
      rw [htyped]
      simp only [List.length_append]
      omega
    obtain ⟨patience, rfl⟩ :=
      Nat.exists_eq_add_of_le ((Nat.le_of_add_right_le hlength).trans hrounds.le)
    by_cases hturn : turn.Resets
    · obtain ⟨after, hafter, hloop⟩ := pollForever_reset monitor α hturn heditor htyped
      rw [hloop]
      exact .halted (List.nil_append _).symm (List.forall_mem_nil _) hturn hafter
    · obtain ⟨after, hafter, hedited, hloop⟩ :=
        pollForever_going monitor α hturn heditor htyped hpatience
      rw [hloop]
      refine (ih hedited hafter ?_ ?_).cons hturn
      · rw [hafter]
        omega
      · rw [hafter]
        omega

/-! ### Runs -/

/-- A run ends with the input, or with the chip. -/
theorem Ended.stopped {α : Type} {turns : List Turn} {rest : Bytes}
    {result : EStateM.Result Stop Station α} (h : Ended turns rest result) :
    ∃ stop after, (stop = .inputExhausted ∧ after.terminal.typed = [] ∨ stop = .halted) ∧
      result = .error stop after := by
  cases h with
  | exhausted hgoing hused => exact ⟨_, _, .inl ⟨rfl, hused⟩, rfl⟩
  | halted hturns hgoing hresets hunread => exact ⟨_, _, .inr rfl, rfl⟩

/-- A run is halted if, and only if, a turn asks for it. -/
theorem Ended.halted_iff {α : Type} {turns : List Turn} {rest : Bytes}
    {result : EStateM.Result Stop Station α} (h : Ended turns rest result) :
    (∃ after, result = .error .halted after) ↔ ∃ turn ∈ turns, turn.Resets := by
  cases h with
  | exhausted hgoing hused =>
    constructor
    · rintro ⟨after, hhalted⟩
      cases hhalted
    · rintro ⟨turn, hmem, hresets⟩
      exact absurd hresets (hgoing turn hmem)
  | @halted after before later turn hturns hgoing hresets hunread =>
    constructor
    · intro _
      exact ⟨turn, hturns ▸ List.mem_append_right before List.mem_cons_self, hresets⟩
    · exact fun _ => ⟨after, rfl⟩

/-- From a station with an empty editor, the monitor greets and goes through the turns. -/
theorem serve_ended (α : Type) (monitor : Monitor) (station : Station)
    (heditor : station.editor = {}) (hpatience : station.terminal.typed.length < monitor.patience)
    (cut : Cut Turn.encode) (hstream : cut.stream = station.terminal.typed) :
    Ended cut.items cut.rest ((monitor.serve : Program Console α).handle
      (console monitor.config.layout direct) station) := by
  -- The greeting takes no input, and then it is for the loop.
  obtain ⟨⟨⟩, greeted, hstart, hgreeted⟩ :=
    (Quiet.say (Monitor.greeting monitor.build ++ Monitor.prompt)).returns monitor.config.layout
      station
  have htyped : greeted.terminal.typed = cut.items.flatMap Turn.encode ++ cut.rest :=
    hgreeted.typed_eq.trans hstream.symm
  have hlength : greeted.terminal.typed.length < monitor.patience := by
    rw [hgreeted.typed_eq]
    exact hpatience
  rw [Monitor.serve, Monitor.start, Program.handle_bind_ok hstart]
  exact pollForever_turns monitor cut.unfinished (hgreeted.editor_eq.trans heditor) htyped hlength
    hlength

/-- **A run ends with a reset or with its input, and turns say which.** Whatever is typed, it has
one cut into turns. The monitor halts if and only if the line of a turn asks for a reset, and then
what comes behind that line is unread; otherwise all of the input is used up. On the way no line
outgrows its buffer, and no count of a bulk session leaves its range. -/
theorem serve_turns {α : Type} (monitor : Monitor) (chip : Chip) (input : Bytes)
    (hpatience : input.length < monitor.patience) :
    (∃ cut : Cut Turn.encode,
      (∀ other : Cut Turn.encode, other.stream = input ↔ other = cut) ∧
      Ended cut.items cut.rest ((monitor.serve : Program Console α).handle
        (console monitor.config.layout direct) { chip, terminal := { typed := input } }) ∧
      ((∃ after, (monitor.serve : Program Console α).handle (console monitor.config.layout direct)
          { chip, terminal := { typed := input } } = .error .halted after) ↔
        ∃ turn ∈ cut.items, turn.Resets)) ∧
    (∀ typed : Bytes,
      (LineEditor.pressAll {} typed).editor.line.length ≤ LineEditor.capacity) ∧
    ∀ (stream : Bytes) (station : Station), ∃ flows session after,
      ((Session.start monitor.config.layout).feedAll stream).handle
        (console monitor.config.layout direct) station = .ok (flows, session) after ∧
      session.state.InRange := by
  refine ⟨?_, LineEditor.length_pressAll_le (Nat.zero_le _), feedAll_inRange _⟩
  obtain ⟨cut, hcut⟩ := Turn.prefixCode.exists_cut_iff input
  have hended := serve_ended α monitor { chip, terminal := { typed := input } } rfl hpatience cut
    ((hcut cut).mpr rfl)
  exact ⟨cut, hcut, hended, hended.halted_iff⟩

/-- In bulk mode Enter may be part of a word, and a reset in a line that is not complete is none. -/
theorem serve_turns_reset :
    let monitor : Monitor := ⟨.ofVariant .asm2142, ⟨[], []⟩, 40⟩
    let bulk : Bytes := Text.utf8 "bmo\r" ++ Text.utf8 "R\r\r\r\r" ++ Text.utf8 "\r"
    let input : Bytes := bulk ++ Text.utf8 "reset\r" ++ Text.utf8 "reset"
    ∃ after, (monitor.serve : Program Console Unit).handle
        (console monitor.config.layout direct) { chip := {}, terminal := { typed := input } } =
      .error .halted after ∧ after.terminal.typed = Text.utf8 "reset" := by
  intro monitor bulk input
  obtain ⟨⟨cut, hcut, hended, -⟩, -, -⟩ :=
    serve_turns (α := Unit) monitor {} input (by decide)
  let transfer : Turn := .transfer (Text.utf8 "bmo\r") (Text.utf8 "bmo")
    ⟨by decide, by decide⟩ (by decide +kernel) [.readWord 0x0d0d0d0d] (by simp)
  let reset : Turn := .command (Text.utf8 "reset\r") (Text.utf8 "reset")
    ⟨by decide, by decide⟩ (by decide +kernel)
  have hrest : Unfinished Turn.encode (Text.utf8 "reset") :=
    Turn.unfinished_of_opening (.typing (by decide))
  obtain rfl := (hcut ⟨[transfer, reset], Text.utf8 "reset", hrest⟩).mp rfl
  have hresets : reset.Resets := by
    show Console.firstToken (Text.utf8 "reset") = _
    decide +kernel
  generalize (monitor.serve : Program Console Unit).handle (console monitor.config.layout direct)
    _ = result at hended ⊢
  cases hended with
  | exhausted hgoing _ => exact absurd hresets (hgoing reset (by simp))
  | @halted after before later turn hturns hgoing hturn hunread =>
    match before, hturns with
    | [], hturns =>
      -- The first line asks for bulk mode.
      obtain ⟨rfl, -⟩ := List.cons.inj hturns
      have hbulk : Console.firstToken (Text.utf8 "bmo") = some ("reset" : Text) := hturn
      exact absurd hbulk (by decide +kernel)
    | [first], hturns =>
      obtain ⟨-, hturns⟩ := List.cons.inj hturns
      obtain ⟨-, rfl⟩ := List.cons.inj hturns
      exact ⟨after, rfl, hunread⟩
    | first :: second :: others, hturns =>
      obtain ⟨-, hturns⟩ := List.cons.inj hturns
      obtain ⟨rfl, -⟩ := List.cons.inj hturns
      exact absurd hresets (hgoing _ (List.mem_cons_of_mem first List.mem_cons_self))

end Sim.Station

end DebugMonitor
