import DebugMonitor.Proofs.Console.Turn
import DebugMonitor.Proofs.Station.Looking
import DebugMonitor.Proofs.Station.Step

/-!
# Taking what is typed

Up to the end of a line the monitor only reads, edits and echoes. It accesses nothing then, so what
it does from there on is all that a run comes to: the run leads to another one, with the same end
and the same accesses (`LeadsTo`). Text that commits nothing leads to the loop again, with the text
echoed and in the editor, and text that commits a line leads to the answer.
-/

namespace DebugMonitor

variable {α β : Type}

namespace Sim.Station

variable {layout : Layout} {station : Station}

/-! ### Accesses of a run -/

/-- The bytes that a program accesses at a terminal. -/
def accessed (layout : Layout) (p : Program Console α) (station : Station) : List Memory.Request :=
  (p.trace (console layout direct) station).filterMap Console.Request.memory?

/-- What accesses nothing, whatever it is answered. -/
abbrev Inert (p : Program Console α) : Prop :=
  p.Within fun request : Console.Request => request.memory? = none

theorem Inert.accessed_eq {p : Program Console α} (hp : Inert p) (station : Station) :
    accessed layout p station = [] :=
  List.filterMap_eq_nil_iff.mpr (Program.forall_mem_trace hp station)

theorem Inert.sendAll (bytes : Bytes) : Inert (Console.sendAll bytes) :=
  Program.Within.sendAll (fun _ => rfl) bytes

theorem Inert.say (text : Text) : Inert (Console.say text) := .sendAll text.wire

/-- Accesses add up. -/
theorem accessed_bind_ok {p : Program Console α} {f : α → Program Console β} {s t : Station} {a : α}
    (h : p.handle (console layout direct) s = .ok a t) :
    accessed layout (p >>= f) s = accessed layout p s ++ accessed layout (f a) t := by
  rw [accessed, Program.trace_bind_ok h, List.filterMap_append]
  rfl

/-- Without input there is nothing to do. -/
theorem accessed_receive_nil (h : station.terminal.typed = []) (f : UInt8 → Program Console α) :
    accessed layout (Console.receive >>= f) station = [] := by
  rw [accessed, Program.trace_bind_error (handle_receive_nil h)]
  exact Inert.accessed_eq (.ask rfl) station

/-! ### Runs that lead to others -/

/-- The first run goes on like the second: it ends as that does, and makes the same accesses. -/
structure LeadsTo (layout : Layout) (p : Program Console α) (s : Station) (q : Program Console α)
    (t : Station) : Prop where
  handle_eq : p.handle (console layout direct) s = q.handle (console layout direct) t
  accessed_eq : accessed layout p s = accessed layout q t

namespace LeadsTo

variable {p q r : Program Console α} {s t u : Station}

theorem refl (p : Program Console α) (s : Station) : LeadsTo layout p s p s := ⟨rfl, rfl⟩

theorem trans (h : LeadsTo layout p s q t) (h' : LeadsTo layout q t r u) :
    LeadsTo layout p s r u :=
  ⟨h.handle_eq.trans h'.handle_eq, h.accessed_eq.trans h'.accessed_eq⟩

/-- What returns without an access leads to what comes behind it. -/
theorem of_ok {p : Program Console β} (hp : Inert p) {b : β} {f : β → Program Console α}
    (h : p.handle (console layout direct) s = .ok b t) : LeadsTo layout (p >>= f) s (f b) t where
  handle_eq := Program.handle_bind_ok h
  accessed_eq := by rw [accessed_bind_ok h, hp.accessed_eq, List.nil_append]

/-- The same may come behind both runs. -/
theorem bind (h : LeadsTo layout p s q t) (f : α → Program Console β) :
    LeadsTo layout (p >>= f) s (q >>= f) t where
  handle_eq := Program.handle_bind_congr h.handle_eq
  accessed_eq := by
    have haccessed := h.accessed_eq
    -- Both end alike, so what comes behind starts from one station, or is never reached.
    cases hq : q.handle (console layout direct) t with
    | ok a after => rw [accessed_bind_ok hq, accessed_bind_ok (h.handle_eq.trans hq), haccessed]
    | error stop after =>
      rw [accessed, accessed, Program.trace_bind_error hq,
        Program.trace_bind_error (h.handle_eq.trans hq)]
      exact haccessed

end LeadsTo

/-! ### Bytes -/

/-- What is done about a committed line, up to the next prompt. -/
def answerLine (monitor : Monitor) (line : Bytes) : Program Console Unit := do
  discard <| monitor.execute (Text.ofBytes line)
  Console.say Monitor.prompt

/-- The station when the text was taken from what is typed, and echoed. -/
def taken (station : Station) (text rest : Bytes) : Station :=
  ((station.withTyped rest).withEditor (station.editor.pressAll text).editor).display
    (station.editor.pressAll text).echo

@[simp] theorem chip_taken (station : Station) (text rest : Bytes) :
    (station.taken text rest).chip = station.chip := rfl

@[simp] theorem typed_taken (station : Station) (text rest : Bytes) :
    (station.taken text rest).terminal.typed = rest := rfl

theorem output_taken (station : Station) (text rest : Bytes) :
    (station.taken text rest).terminal.output =
      station.terminal.output ++ (station.editor.pressAll text).echo :=
  output_display _ _

theorem taken_singleton (station : Station) (b : UInt8) (rest : Bytes) :
    station.taken [b] rest =
      ((station.withTyped rest).withEditor (station.editor.press b).after).display
        (station.editor.press b).echo := by
  rw [taken, LineEditor.pressAll_cons]
  show Station.display _ (_ ++ []) = _
  rw [List.append_nil]
  rfl

theorem taken_append (station : Station) (s t rest between : Bytes) :
    station.taken (s ++ t) rest = (station.taken s between).taken t rest := by
  rw [taken, LineEditor.pressAll_append]
  show Station.display _ (_ ++ _) = _
  rw [← display_display]
  rfl

variable (monitor : Monitor)

variable (layout) in
/-- A byte is taken, and then the line is answered that it commits, if any. -/
theorem poll_leadsTo {b : UInt8} {rest : Bytes} (htyped : station.terminal.typed = b :: rest) :
    LeadsTo layout monitor.poll station
      (match (station.editor.press b).committed with
        | some line => answerLine monitor line
        | none => pure ())
      (station.taken [b] rest) := by
  let meanwhile := (station.withTyped rest).withEditor (station.editor.press b).meanwhile
  let echoed := meanwhile.display (station.editor.press b).echo
  have heditor : Console.editor.handle (console layout direct) (station.withTyped rest) =
      .ok station.editor (station.withTyped rest) := rfl
  have hset : ∀ (editor : LineEditor) (station : Station),
      (Console.setEditor editor).handle (console layout direct) station =
        .ok () (station.withEditor editor) := fun _ _ => rfl
  have hecho : (Console.sendAll (station.editor.press b).echo).handle (console layout direct)
      meanwhile = .ok () echoed := handle_sendAll _ _
  rw [Monitor.poll, taken_singleton]
  -- The requests of a poll one by one, up to the answer to a line.
  refine (LeadsTo.of_ok (.ask rfl) (handle_receive htyped)).trans ?_
  refine (LeadsTo.of_ok (.ask rfl) heditor).trans ?_
  refine (LeadsTo.of_ok (.ask rfl) (hset _ _)).trans ?_
  refine (LeadsTo.of_ok (.sendAll _) hecho).trans ?_
  refine (LeadsTo.of_ok (.ask rfl) (hset _ _)).trans ?_
  cases (station.editor.press b).committed with
  | none => exact .refl _ _
  | some line => exact .refl _ _

/-! ### The loop -/

/-- Text that commits nothing is taken byte by byte. -/
theorem pollForever_silent {text rest : Bytes}
    (hsilent : (station.editor.pressAll text).lines = [])
    (htyped : station.terminal.typed = text ++ rest) (patience : Nat) :
    LeadsTo layout (monitor.pollForever (text.length + patience) : Program Console α) station
      (monitor.pollForever patience) (station.taken text rest) := by
  induction text generalizing station with
  | nil =>
    rw [List.length_nil, Nat.zero_add]
    obtain ⟨chip, ⟨typed, shown, flushes⟩, editor⟩ := station
    obtain rfl : typed = rest := htyped
    exact .refl _ _
  | cons b text ih =>
    -- A byte costs one round, whatever is left of the text.
    rw [LineEditor.pressAll_cons] at hsilent
    obtain ⟨hcommitted, hlater⟩ := List.append_eq_nil_iff.mp hsilent
    have hpoll := poll_leadsTo layout monitor htyped
    rw [Option.toList_eq_nil_iff.mp hcommitted] at hpoll
    rw [List.length_cons, Nat.add_right_comm, ← List.singleton_append,
      taken_append station [b] text rest (text ++ rest)]
    exact (hpoll.bind _).trans (ih hlater rfl)

/-- Text up to a commit is taken, and then the line is answered. -/
theorem pollForever_committed {typed line rest : Bytes} (hcommits : LineEditor.Commits typed line)
    (heditor : station.editor = {}) (htyped : station.terminal.typed = typed ++ rest)
    (patience : Nat) :
    LeadsTo layout (monitor.pollForever (typed.length + patience) : Program Console α) station
      (answerLine monitor line >>= fun _ => monitor.pollForever patience)
      (station.taken typed rest) := by
  -- The line is committed by the last byte, and the text before it commits nothing.
  obtain ⟨start, b, rfl, hsilent, hcommitted⟩ := hcommits.exists_press
  rw [← heditor] at hsilent hcommitted
  rw [List.append_assoc] at htyped
  have hpoll := poll_leadsTo layout monitor (typed_taken station start (b :: rest))
  rw [show ((station.taken start (b :: rest)).editor.press b).committed = some line
    from hcommitted] at hpoll
  rw [List.length_append, List.length_singleton, Nat.add_assoc, Nat.add_comm 1,
    taken_append station start [b] rest (b :: rest)]
  exact (pollForever_silent monitor hsilent htyped (patience + 1)).trans (hpoll.bind _)

/-- The editor is fresh again behind a committed line. -/
theorem editor_taken {typed line : Bytes} (hcommits : LineEditor.Commits typed line)
    (heditor : station.editor = {}) (rest : Bytes) : (station.taken typed rest).editor = {} := by
  obtain ⟨start, b, rfl, -, hcommitted⟩ := hcommits.exists_press
  show (station.editor.pressAll (start ++ [b])).editor = {}
  rw [heditor, LineEditor.pressAll_append]
  exact LineEditor.after_of_committed hcommitted

/-- Without input the loop stops at once. -/
theorem pollForever_exhausted (h : station.terminal.typed = []) (patience : Nat) :
    (monitor.pollForever (patience + 1) : Program Console α).handle
      (console layout direct) station = .error .inputExhausted station := by
  rw [Monitor.pollForever, Monitor.poll, bind_assoc]
  exact Program.handle_bind_error (handle_receive_nil h)

theorem accessed_exhausted (h : station.terminal.typed = []) (patience : Nat) :
    accessed layout (monitor.pollForever (patience + 1) : Program Console α) station = [] := by
  rw [Monitor.pollForever, Monitor.poll, bind_assoc]
  exact accessed_receive_nil h _

end Sim.Station

end DebugMonitor
