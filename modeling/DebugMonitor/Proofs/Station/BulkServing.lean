import DebugMonitor.Proofs.Bulk.Decoding
import DebugMonitor.Proofs.Station.LeadsTo

/-!
# Serving bulk items at a terminal

A bulk session takes one byte a round, and leaves or goes on to the next. It is in the middle of an
item all the time (`Bulk.Awaits`): an item that comes to its end is taken off the list, and the
first exit among the items ends the loop. Where there is none, the loop ends with the input.
-/

namespace DebugMonitor

open Bulk (Item Session)

namespace Sim.Station

variable {layout : Layout} {station : Station}

/-! ### Items -/

/-- One round of a bulk session. -/
theorem serve_leadsTo (byWords : Bool) (state : Bulk.State) {b : UInt8} {rest : Bytes}
    (htyped : station.terminal.typed = b :: rest) (patience : Nat) :
    LeadsTo layout (Session.serve ⟨state, byWords⟩ (patience + 1)) station
      (Session.next byWords b state >>= fun found =>
        match Session.flow state b with
        | .exit => pure ()
        | .more => Session.serve ⟨found, byWords⟩ patience)
      (station.withTyped rest) := by
  refine (LeadsTo.of_ok (.ask rfl) (handle_receive htyped)).trans ?_
  rw [Session.feed, bind_assoc]
  simp only [pure_bind]
  cases Session.flow state b with
  | exit => exact .refl _ _
  | more => exact .refl _ _

/-- How a bulk session ends on items and the beginning of one more: it uses up the input, or it
leaves at the first exit, with the editor as it was and everything behind the exit unread. -/
inductive Served (editor : LineEditor) (items : List Item) (rest : Bytes) :
    EStateM.Result Stop Station Unit → Prop where
  | exhausted {after : Station} (inside : Item.exit ∉ items) (used : after.terminal.typed = []) :
    Served editor items rest (.error .inputExhausted after)
  | left {after : Station} {before later : List Item}
      (items_eq : items = before ++ Item.exit :: later) (inside : Item.exit ∉ before)
      (unread : after.terminal.typed = later.flatMap Item.encode ++ rest)
      (editor_eq : after.editor = editor) :
    Served editor items rest (.ok () after)

/-- An item in front that is no exit is served first. -/
theorem Served.cons {editor : LineEditor} {item : Item} {items : List Item} {rest : Bytes}
    {result : EStateM.Result Stop Station Unit} (hitem : item ≠ .exit)
    (h : Served editor items rest result) : Served editor (item :: items) rest result := by
  cases h with
  | exhausted hinside hused =>
    exact .exhausted (List.not_mem_cons_of_ne_of_not_mem (Ne.symm hitem) hinside) hused
  | @left after before later hitems hinside hunread heditor =>
    have hcons : item :: items = (item :: before) ++ Item.exit :: later := by
      rw [hitems]
      rfl
    exact .left hcons (List.not_mem_cons_of_ne_of_not_mem (Ne.symm hitem) hinside) hunread heditor

/-- A session in the middle of an item serves what is typed up to the first exit, or all of it. -/
theorem serve_items (byWords : Bool) {state : Bulk.State} {start : Bytes}
    (h : Bulk.Awaits state start) {items : List Item} {rest : Bytes}
    (hrest : Unfinished Item.encode rest) {stream : Bytes}
    (hstream : items.flatMap Item.encode ++ rest = start ++ stream) {patience : Nat}
    (hpatience : stream.length < patience) (htyped : station.terminal.typed = stream) :
    Served station.editor items rest
      ((Session.serve ⟨state, byWords⟩ patience).handle (console layout direct) station) := by
  obtain ⟨patience, rfl⟩ := Nat.exists_eq_add_one_of_ne_zero (Nat.ne_zero_of_lt hpatience)
  induction stream generalizing state start items patience station with
  | nil =>
    -- The beginning of an item has no items in it.
    rw [List.append_nil] at hstream
    obtain rfl := Bulk.prefixCode.items_eq_nil hrest h.unfinished hstream
    have hserve : (Session.serve ⟨state, byWords⟩ (patience + 1)).handle (console layout direct)
        station = .error .inputExhausted station :=
      Program.handle_bind_error (handle_receive_nil htyped)
    rw [hserve]
    exact .exhausted List.not_mem_nil htyped
  | cons b stream ih =>
    have hshorter : stream.length < patience := Nat.lt_of_succ_lt_succ hpatience
    obtain ⟨found, middle, hnext, hmiddle⟩ :=
      (Quiet.next byWords b state).returns layout (station.withTyped stream)
    have htail : middle.terminal.typed = stream := hmiddle.typed_eq
    have heditor : middle.editor = station.editor := hmiddle.editor_eq
    obtain ⟨patience, rfl⟩ := Nat.exists_eq_add_one_of_ne_zero (Nat.ne_zero_of_lt hshorter)
    rw [(serve_leadsTo byWords state htyped _).handle_eq, Program.handle_bind_ok hnext, ← heditor]
    cases h.step byWords b with
    | finished item effect hencode hflow hsends heffect =>
      obtain rfl := eq_of_sends hsends hnext
      obtain ⟨items, rfl, hbehind⟩ := Bulk.prefixCode.exists_cons hrest hencode hstream
      rcases Item.last_flow hencode hflow with ⟨rfl, hleave⟩ | ⟨hexit, hmore⟩
      · rw [hleave]
        exact .left (List.nil_append _).symm List.not_mem_nil (htail.trans hbehind.symm) rfl
      · rw [hmore]
        exact (ih .idle hbehind htail patience hshorter).cons hexit
    | unfinished grown effect hgrown hflow hsends heffect =>
      obtain rfl := eq_of_sends hsends.silent hnext
      rw [hflow]
      refine ih hgrown ?_ htail patience hshorter
      rw [hstream, List.append_assoc, List.singleton_append]

/-- Two lists with one mark in front of their tails are equal in parts. -/
theorem eq_of_append_cons_eq {α : Type} {mark : α} {s t left right : List α} (hs : mark ∉ s)
    (ht : mark ∉ t) (h : s ++ mark :: left = t ++ mark :: right) : s = t ∧ left = right := by
  obtain ⟨between, rfl, hbetween⟩ | ⟨between, rfl, hbetween⟩ := List.append_eq_append_iff.mp h
  all_goals cases between with
    | nil => simpa [eq_comm] using hbetween
    | cons first between => simp_all

/-- A fresh session leaves bulk mode at the exit behind items that are none. -/
theorem serve_exit (own : Layout) {items : List Item} (hinside : Item.exit ∉ items) {tail : Bytes}
    (htyped : station.terminal.typed = (items ++ [Item.exit]).flatMap Item.encode ++ tail)
    {patience : Nat} (hpatience : station.terminal.typed.length < patience) :
    ∃ after, ((Session.start own).serve patience).handle (console layout direct) station =
      .ok () after ∧ after.terminal.typed = tail ∧ after.editor = station.editor := by
  -- What follows the exit is cut as if it were bulk traffic; the session never gets there.
  obtain ⟨⟨others, rest, hrest⟩, hcut⟩ := Bulk.prefixCode.exists_cut tail
  have hstream : (items ++ Item.exit :: others).flatMap Item.encode ++ rest =
      [] ++ station.terminal.typed := by
    rw [htyped, ← hcut]
    simp [Cut.stream]
  have hserved : Served station.editor (items ++ Item.exit :: others) rest
      (((Session.start own).serve patience).handle (console layout direct) station) :=
    serve_items _ .idle hrest hstream hpatience rfl
  generalize ((Session.start own).serve patience).handle (console layout direct) station = result
    at hserved ⊢
  cases hserved with
  | exhausted hnone _ => exact absurd (List.mem_append_right items List.mem_cons_self) hnone
  | left hitems hbefore hunread heditor =>
    obtain ⟨rfl, rfl⟩ := eq_of_append_cons_eq hinside hbefore hitems
    exact ⟨_, rfl, hunread.trans hcut, heditor⟩

/-- Where no item is an exit, a fresh session uses up the input. -/
theorem serve_exhausted (own : Layout) {items : List Item} (hinside : Item.exit ∉ items)
    {rest : Bytes} (hrest : Unfinished Item.encode rest)
    (htyped : station.terminal.typed = items.flatMap Item.encode ++ rest)
    {patience : Nat} (hpatience : station.terminal.typed.length < patience) :
    ∃ after, ((Session.start own).serve patience).handle (console layout direct) station =
      .error .inputExhausted after ∧ after.terminal.typed = [] := by
  have hserved : Served station.editor items rest
      (((Session.start own).serve patience).handle (console layout direct) station) :=
    serve_items _ .idle hrest (by rw [htyped]; rfl) hpatience rfl
  generalize ((Session.start own).serve patience).handle (console layout direct) station = result
    at hserved ⊢
  cases hserved with
  | exhausted _ hused => exact ⟨_, rfl, hused⟩
  | left hitems _ _ _ =>
    rw [hitems] at hinside
    exact absurd (List.mem_append_right _ List.mem_cons_self) hinside

/-! ### Streams -/

/-- Feeding a session takes no input of its own. -/
theorem quiet_feedAll (session : Session) (stream : Bytes) : Quiet (session.feedAll stream) := by
  induction stream generalizing session with
  | nil => trivial
  | cons b rest ih =>
    refine .bind ?_ fun entry => .bind (ih _) fun _ => .pure _
    exact .bind (Quiet.next _ b _) fun _ => .pure _

/-- Whatever a bulk session is fed, it is left in range. -/
theorem feedAll_inRange (own : Layout) (stream : Bytes) (station : Station) :
    ∃ flows session after, ((Session.start own).feedAll stream).handle (console layout direct)
      station = .ok (flows, session) after ∧ session.state.InRange := by
  obtain ⟨⟨flows, session⟩, after, hfeed, -⟩ :=
    (quiet_feedAll (Session.start own) stream).returns layout station
  obtain ⟨cut, state, answers, effect, -, hawaits, -, hsends, -⟩ :=
    Bulk.feedAll_awaits (own.paging = .banked) .idle stream
  have hsession := congrArg Prod.snd (eq_of_sends hsends hfeed)
  refine ⟨flows, session, after, hfeed, ?_⟩
  rw [show session = ⟨state, _⟩ from hsession]
  exact hawaits.inRange

end Sim.Station

end DebugMonitor
