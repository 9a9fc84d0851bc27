import DebugMonitor.Proofs.Station.Touching
import DebugMonitor.Proofs.Station.Turns

/-!
# A transfer from greeting to prompt

A line asks for bulk mode, items follow, and an exit. What is shown of that is the greeting, the
echo of the line, the replies to the items between the announcement and the next prompt, and not a
byte more (`serve_transfer`). The replies are those of the memory alone, and nothing is accessed but
what the items are about.
-/

namespace DebugMonitor

open Bulk (Item Session)

variable {α : Type}

namespace Sim.Station

variable {layout : Layout} {station : Station}

/-! ### Accesses -/

/-- A program that touches a region accesses nothing else. -/
theorem accessed_touching {region : UInt32 → Prop} {p : Program Console α}
    (hp : Touching region p) (station : Station) :
    ∀ request ∈ accessed layout p station, region request.address := by
  intro request hrequest
  obtain ⟨asked, hasked, hmemory⟩ := List.mem_filterMap.mp hrequest
  exact Program.forall_mem_trace hp station asked hasked request hmemory

/-- A session that is fed nothing but items accesses what they are about. -/
theorem accessed_serve (byWords : Bool) {state : Bulk.State} {start : Bytes}
    (h : Bulk.Awaits state start) {items : List Item}
    (hstream : items.flatMap Item.encode = start ++ station.terminal.typed) (patience : Nat) :
    ∀ request ∈ accessed layout (Session.serve ⟨state, byWords⟩ patience) station,
      ∃ item ∈ items, item.Touches request.address := by
  generalize htyped : station.terminal.typed = stream at hstream
  induction stream generalizing state start items patience station with
  | nil =>
    cases patience with
    | zero => exact List.forall_mem_nil _
    | succ patience =>
      rw [Session.serve, accessed_receive_nil htyped]
      exact List.forall_mem_nil _
  | cons b stream ih =>
    cases patience with
    | zero => exact List.forall_mem_nil _
    | succ patience =>
      obtain ⟨found, middle, hnext, hmiddle⟩ :=
        (Quiet.next byWords b state).returns layout (station.withTyped stream)
      rw [(serve_leadsTo byWords state htyped patience).accessed_eq, accessed_bind_ok hnext]
      refine List.forall_mem_append.mpr ⟨?_, ?_⟩
      · -- The byte is part of an item, which may be complete now.
        obtain ⟨item, hitem, hbegins⟩ := Bulk.prefixCode.begins_cons h.unfinished hstream
        intro request hrequest
        exact ⟨item, hitem, accessed_touching (h.touches byWords hbegins) _ request hrequest⟩
      · rw [← List.append_nil (items.flatMap Item.encode)] at hstream
        cases h.step byWords b with
        | finished item effect hencode hflow hsends heffect =>
          obtain rfl := eq_of_sends hsends hnext
          obtain ⟨later, rfl, hbehind⟩ :=
            Bulk.prefixCode.exists_cons Bulk.prefixCode.nil hencode hstream
          rw [List.append_nil] at hbehind
          cases Session.flow state b with
          | exit => exact List.forall_mem_nil _
          | more =>
            intro request hrequest
            obtain ⟨other, hother, htouches⟩ :=
              ih .idle patience hmiddle.typed_eq hbehind request hrequest
            exact ⟨other, List.mem_cons_of_mem item hother, htouches⟩
        | unfinished grown effect hgrown hflow hsends heffect =>
          obtain rfl := eq_of_sends hsends.silent hnext
          rw [hflow]
          refine ih hgrown patience hmiddle.typed_eq ?_
          rw [← List.append_nil (items.flatMap Item.encode), hstream, List.append_assoc,
            List.singleton_append]

/-! ### Replies -/

/-- A session serves its items on the chip, and sends what they reply. -/
theorem handle_items (own : Layout) {items : List Item} (hinside : Item.exit ∉ items)
    {tail : Bytes}
    (htyped : station.terminal.typed = (items ++ [Item.exit]).flatMap Item.encode ++ tail)
    {patience : Nat} (hpatience : station.terminal.typed.length < patience) {replies : Bytes}
    {chip : Chip}
    (hserve : (Bulk.serveAll items).handle (Chip.memory layout) station.chip = .ok replies chip) :
    ((Session.start own).serve patience).handle (console layout direct) station =
      .ok () (((station.withTyped tail).withChip chip).display replies) := by
  -- That the session leaves is known. What it does meanwhile is what its desk sees.
  obtain ⟨after, hrun, -, -⟩ := serve_exit own hinside htyped hpatience
  have hstream : station.terminal.typed =
      items.flatMap Item.encode ++ '\r'.toUInt8 :: tail := by
    rw [htyped, List.flatMap_append, List.append_assoc]
    rfl
  have hshorter : (items.flatMap Item.encode).length < patience := by
    rw [hstream, List.length_append] at hpatience
    exact Nat.lt_of_add_right_lt hpatience
  obtain ⟨effect, heffect, hdesk⟩ := Bulk.serve_awaits layout Chip.bus (own.paging = .banked) .idle
    hinside (List.nil_append _).symm hshorter tail
  obtain rfl : effect = Bulk.serveAll items := heffect
  exact handle_of_desk hrun (hdesk station.desk hstream) hserve

/-- The line that asks for bulk mode is answered by the session, between its announcement and the
next prompt. -/
theorem answerLine_bulk (monitor : Monitor) {line : Bytes}
    (hbulk : Console.firstToken line = some ("bmo" : Text)) :
    answerLine monitor line =
      (do
        Console.say "OK\n"
        (Session.start monitor.config.layout).serve monitor.patience
        Console.say Monitor.prompt) := by
  obtain ⟨arguments, htokens⟩ := List.head?_eq_some_iff.mp hbulk
  show (monitor.execute (Text.ofBytes line) >>= fun _ => pure ()) >>= _ = _
  rw [execute_bulk monitor htokens, Monitor.serveBulk]
  simp only [bind_assoc, pure_bind]

/-- Up to the announcement of the session nothing is accessed. -/
theorem serve_announced (α : Type) (monitor : Monitor) {station : Station}
    (heditor : station.editor = {})
    {typed line stream : Bytes} (hcommits : LineEditor.Commits typed line)
    (hbulk : Console.firstToken line = some ("bmo" : Text))
    (htyped : station.terminal.typed = typed ++ stream) {patience : Nat}
    (hpatience : monitor.patience = typed.length + patience) :
    ∃ announced, announced.chip = station.chip ∧ announced.terminal.typed = stream ∧
      announced.terminal.output = station.terminal.output ++
        ((Monitor.greeting monitor.build ++ Monitor.prompt).wire ++
          (LineEditor.pressAll {} typed).echo ++ Text.wire "OK\n") ∧
      LeadsTo layout (monitor.serve : Program Console α) station
        (do
          (Session.start monitor.config.layout).serve monitor.patience
          Console.say Monitor.prompt
          monitor.pollForever patience)
        announced := by
  let greeted := station.display (Monitor.greeting monitor.build ++ Monitor.prompt).wire
  let asked := greeted.taken typed stream
  have hfresh : greeted.editor = {} := (editor_display station _).trans heditor
  -- The greeting, the line and the announcement, each leading to the next.
  have hstart : LeadsTo layout (monitor.serve : Program Console α) station
      (monitor.pollForever monitor.patience) greeted := .of_ok (.say _) (handle_say _ _)
  have hline : LeadsTo layout (monitor.pollForever monitor.patience : Program Console α) greeted
      (answerLine monitor line >>= fun _ => monitor.pollForever patience) asked := by
    have hgreeted : greeted.terminal.typed = typed ++ stream :=
      (typed_display station _).trans htyped
    rw [hpatience]
    exact pollForever_committed monitor hcommits hfresh hgreeted patience
  have hanswer : LeadsTo layout
      (answerLine monitor line >>= fun _ => (monitor.pollForever patience : Program Console α))
      asked
      (do
        (Session.start monitor.config.layout).serve monitor.patience
        Console.say Monitor.prompt
        monitor.pollForever patience)
      (asked.display (Text.wire "OK\n")) := by
    rw [answerLine_bulk monitor hbulk]
    simp only [bind_assoc]
    exact .of_ok (.say _) (handle_say _ _)
  refine ⟨asked.display (Text.wire "OK\n"), ?_, ?_, ?_, (hstart.trans hline).trans hanswer⟩
  · rw [chip_display, chip_taken, chip_display]
  · rw [typed_display, typed_taken]
  · rw [output_display, output_taken, hfresh, output_display, List.append_assoc,
      List.append_assoc, List.append_assoc]

/-- **A transfer shows its replies and nothing else,** from the greeting to the prompt behind it,
and accesses what its items are about. -/
theorem serve_transfer (monitor : Monitor) (station : Station) (heditor : station.editor = {})
    (hpatience : station.terminal.typed.length < monitor.patience) {typed line : Bytes}
    (hcommits : LineEditor.Commits typed line)
    (hbulk : Console.firstToken line = some ("bmo" : Text)) {items : List Item}
    (hinside : Item.exit ∉ items)
    (htyped : station.terminal.typed = typed ++ (items ++ [Item.exit]).flatMap Item.encode)
    {replies : Bytes} {chip : Chip}
    (hserve : (Bulk.serveAll items).handle (Chip.memory monitor.config.layout) station.chip =
      .ok replies chip) :
    ∃ after, (monitor.serve : Program Console α).handle
        (console monitor.config.layout direct) station = .error .inputExhausted after ∧
      after.terminal.output = station.terminal.output ++
        ((Monitor.greeting monitor.build ++ Monitor.prompt).wire ++
          (LineEditor.pressAll {} typed).echo ++ Text.wire "OK\n") ++ replies ++
        Monitor.prompt.wire ∧
      ∀ request ∈ accessed monitor.config.layout (monitor.serve : Program Console α) station,
        ∃ item ∈ items, item.Touches request.address := by
  -- The line and the items are paid for separately, each out of the whole patience.
  rw [htyped, List.length_append] at hpatience
  obtain ⟨patience, hrounds⟩ : ∃ patience, monitor.patience = typed.length + (patience + 1) :=
    Nat.exists_eq_add_of_lt (Nat.lt_of_add_right_lt hpatience)
  obtain ⟨announced, hchip, hstream, houtput, hrun⟩ :=
    serve_announced α monitor heditor hcommits hbulk htyped hrounds
  have hshorter : announced.terminal.typed.length < monitor.patience := by
    rw [hstream]
    exact Nat.lt_of_add_left_lt hpatience
  rw [← hchip] at hserve
  have hsession := handle_items monitor.config.layout hinside
    (hstream.trans (List.append_nil _).symm) hshorter hserve
  rw [hrun.handle_eq, hrun.accessed_eq, Program.handle_bind_ok hsession, accessed_bind_ok hsession,
    Program.handle_bind_ok (handle_say _ _)]
  generalize hserved : ((announced.withTyped []).withChip chip).display replies = served
  have hused : (served.display Monitor.prompt.wire).terminal.typed = [] := by
    rw [typed_display, ← hserved, typed_display]
    rfl
  refine ⟨_, pollForever_exhausted monitor hused patience, ?_,
    List.forall_mem_append.mpr ⟨?_, ?_⟩⟩
  · rw [output_display, ← hserved, output_display, ← houtput]
    rfl
  · intro request hrequest
    obtain ⟨item, hitem, htouches⟩ := accessed_serve _ .idle hstream.symm _ request hrequest
    rcases List.mem_append.mp hitem with hitem | hexit
    · exact ⟨item, hitem, htouches⟩
    · -- An exit is about nothing.
      obtain rfl := List.mem_singleton.mp hexit
      exact htouches.elim
  · rw [(LeadsTo.of_ok (.say _) (handle_say _ _)).accessed_eq,
      accessed_exhausted monitor hused patience]
    exact List.forall_mem_nil _

end Sim.Station

end DebugMonitor
