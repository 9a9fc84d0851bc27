import DebugMonitor.Interrupt
import DebugMonitor.Proofs.Exchange
import Mathlib.Data.List.Induction
import Mathlib.Logic.ExistsUnique
import Mathlib.Logic.Function.Basic

/-!
# Latches shared by many

Handlers raise the lines and consumers take the events, all of them on the same latches. Each of
these parties is a program, which may go by the answers that it got, and a call is atomic: it is
answered by the latches as they are, and changes them, in one step. Whose turn it is next is left
open, so an `Interleaving` may be any order of calls that the parties can get into.

The two lines have nothing to do with each other. In every interleaving, the calls for a line get
the answers that they would have got alone (`Interleaving.inOrder`), and this is all that is needed
of an order of calls. Then a latch tells whether its line was raised since it was taken last
(`isRaised_alone_iff`), and from this it follows that no event is lost and none is counted twice
(`events_accounted`).
-/

namespace DebugMonitor.Interrupt

/-- The calls on the latches. -/
inductive Call where
  | raise (line : Line)
  | isRaised (line : Line)
  | take (line : Line)
  deriving DecidableEq, Repr

abbrev Call.Answer : Call → Type
  | raise _ => Unit
  | isRaised _ | take _ => Bool

def Call.line : Call → Line
  | raise line | isRaised line | take line => line

abbrev Calls : Interface := ⟨Call, Call.Answer⟩

/-! ### Calls -/

namespace Latches

def perform (latches : Latches) : (call : Call) → call.Answer × Latches
  | .raise line => ((), latches.raise line)
  | .isRaised line => (latches.isRaised line, latches)
  | .take line => latches.take line

/-- Setting one latch does not touch the other. -/
theorem isRaised_set (latches : Latches) (raised : Bool) (line other : Line) :
    (latches.set raised other).isRaised line =
      if other = line then raised else latches.isRaised line := by
  cases line <;> cases other <;> rfl

/-- A line is raised and taken by its own calls only. -/
theorem isRaised_perform (latches : Latches) (call : Call) (line : Line) :
    (latches.perform call).2.isRaised line =
      if call = .raise line then true
      else if call = .take line then false
      else latches.isRaised line := by
  cases call with
  | raise other => simp [perform, raise, isRaised_set]
  | isRaised other => rfl
  | take other => simp [perform, take, isRaised_set]

/-- And the answers depend on their own line only. -/
theorem perform_congr {latches others : Latches} {call : Call}
    (h : latches.isRaised call.line = others.isRaised call.line) :
    (latches.perform call).1 = (others.perform call).1 := by
  cases call with
  | raise line => rfl
  | isRaised line => exact h
  | take line => exact h

/-- The latches after some calls. -/
def after (latches : Latches) (calls : List Call) : Latches :=
  calls.foldl (fun latches call => (latches.perform call).2) latches

/-- Some calls with their answers. -/
def answers (latches : Latches) : List Call → List (Exchange Calls)
  | [] => []
  | call :: rest => ⟨call, (latches.perform call).1⟩ :: (latches.perform call).2.answers rest

theorem after_concat (latches : Latches) (calls : List Call) (call : Call) :
    latches.after (calls ++ [call]) = ((latches.after calls).perform call).2 := by
  simp [after]

theorem answers_append (latches : Latches) (calls others : List Call) :
    latches.answers (calls ++ others) =
      latches.answers calls ++ (latches.after calls).answers others := by
  induction calls generalizing latches with
  | nil => rfl
  | cons call rest ih => exact congrArg (_ :: ·) (ih _)

theorem length_answers (latches : Latches) (calls : List Call) :
    (latches.answers calls).length = calls.length := by
  induction calls generalizing latches with
  | nil => rfl
  | cons call rest ih => exact congrArg (· + 1) (ih _)

end Latches

/-! ### Histories -/

variable {ι α : Type}

/-- A call with its answer, and who made it. -/
abbrev Event (ι : Type) := ι × Exchange Calls

/-- The calls for a line, with their answers. -/
def onLine (line : Line) (events : List (Event ι)) : List (Exchange Calls) :=
  (events.map Prod.snd).filter (·.1.line = line)

/-- The latches as the calls for a line would have left them alone. -/
def alone (line : Line) (events : List (Event ι)) : Latches :=
  Latches.after {} ((onLine line events).map Sigma.fst)

/-- The calls for a line were performed one after the other, and no others had a part in it. -/
def InOrder (line : Line) (events : List (Event ι)) : Prop :=
  onLine line events = Latches.answers {} ((onLine line events).map Sigma.fst)

/-- There is a raise of the line with no take behind it. -/
def Pending (line : Line) (events : List (Event ι)) : Prop :=
  ∃ front raise back, events = front ++ raise :: back ∧ raise.2.1 = .raise line ∧
    ∀ event ∈ back, event.2.1 ≠ .take line

/-- The first take behind a raise answers for it. -/
def ReportedAt (line : Line) (later : List (Event ι)) (n : Nat) : Prop :=
  (∃ i, later[n]? = some (i, ⟨.take line, true⟩)) ∧
    ∀ event ∈ later.take n, event.2.1 ≠ .take line

def raises (line : Line) (event : Event ι) : Bool := event.2.1 = .raise line

/-- The event is a take of the line that found something. -/
def reports (line : Line) : Event ι → Bool
  | (_, ⟨.take taken, answer⟩) => taken = line && answer
  | _ => false

variable {events before later : List (Event ι)} {line : Line} {latches : Latches}

theorem onLine_append (line : Line) (events later : List (Event ι)) :
    onLine line (events ++ later) = onLine line events ++ onLine line later := by
  rw [onLine, List.map_append, List.filter_append]
  rfl

theorem onLine_cons_of_line {event : Event ι} (h : event.2.1.line = line) :
    onLine line (event :: later) = event.2 :: onLine line later :=
  List.filter_cons_of_pos (decide_eq_true h)

theorem onLine_concat_of_line {last : Event ι} (h : last.2.1.line = line) :
    onLine line (events ++ [last]) = onLine line events ++ [last.2] := by
  rw [onLine_append, onLine_cons_of_line h]
  rfl

theorem onLine_concat_of_ne {last : Event ι} (h : last.2.1.line ≠ line) :
    onLine line (events ++ [last]) = onLine line events := by
  have hnone : onLine line [last] = [] := List.filter_cons_of_neg (by simpa using h)
  rw [onLine_append, hnone, List.append_nil]

/-- The latch of a line, told from the events before. -/
theorem isRaised_alone_concat (line : Line) (events : List (Event ι)) (last : Event ι) :
    (alone line (events ++ [last])).isRaised line =
      ((alone line events).perform last.2.1).2.isRaised line := by
  by_cases hline : last.2.1.line = line
  · rw [alone, onLine_concat_of_line hline, List.map_append, List.map_singleton,
      Latches.after_concat]
    rfl
  · have hother : last.2.1 ≠ .raise line ∧ last.2.1 ≠ .take line := by
      constructor <;> exact fun h => hline (by rw [h]; rfl)
    rw [alone, onLine_concat_of_ne hline, Latches.isRaised_perform, if_neg hother.1,
      if_neg hother.2]
    rfl

/-! ### Pending events -/

theorem not_pending_nil : ¬ Pending line ([] : List (Event ι)) := by
  rintro ⟨front, raise, back, hnil, -⟩
  exact absurd hnil.symm (List.append_ne_nil_of_right_ne_nil _ (List.cons_ne_nil _ _))

/-- Where a history ends with an event, it can be cut at this event or before. -/
theorem concat_eq_append_cons_iff {last event : Event ι} :
    events ++ [last] = before ++ event :: later ↔
      (before = events ∧ event = last ∧ later = []) ∨
        ∃ middle, later = middle ++ [last] ∧ events = before ++ event :: middle := by
  constructor
  · intro h
    rcases List.eq_nil_or_concat later with rfl | ⟨middle, found, rfl⟩
    · obtain ⟨rfl, hlast⟩ := List.append_inj' h rfl
      exact .inl ⟨rfl, (List.singleton_inj.mp hlast).symm, rfl⟩
    · have hcut : events ++ [last] = (before ++ event :: middle) ++ [found] := by simpa using h
      obtain ⟨hevents, hlast⟩ := List.append_inj' hcut rfl
      obtain rfl := List.singleton_inj.mp hlast
      exact .inr ⟨middle, by simp, hevents⟩
  · rintro (⟨rfl, rfl, rfl⟩ | ⟨middle, rfl, rfl⟩)
    · rfl
    · simp

/-- An event is pending if the last call raised it, or if it was pending before and the last call
did not take it. -/
theorem pending_concat_iff {last : Event ι} :
    Pending line (events ++ [last]) ↔
      last.2.1 = .raise line ∨ last.2.1 ≠ .take line ∧ Pending line events := by
  constructor
  · rintro ⟨front, raise, back, hcut, hraise, hback⟩
    rcases concat_eq_append_cons_iff.mp hcut with ⟨-, rfl, -⟩ | ⟨middle, rfl, hevents⟩
    · exact .inl hraise
    · rw [List.forall_mem_append] at hback
      exact .inr ⟨hback.2 last List.mem_cons_self, front, raise, middle, hevents, hraise, hback.1⟩
  · rintro (hlast | ⟨hlast, front, raise, back, rfl, hraise, hback⟩)
    · exact ⟨events, last, [], rfl, hlast, List.forall_mem_nil _⟩
    · refine ⟨front, raise, back ++ [last], by simp, hraise, ?_⟩
      exact List.forall_mem_append.mpr ⟨hback, List.forall_mem_singleton.mpr hlast⟩

/-- **A latch is set if its line was raised since it was taken last.** -/
theorem isRaised_alone_iff (line : Line) (events : List (Event ι)) :
    (alone line events).isRaised line = true ↔ Pending line events := by
  induction events using List.reverseRecOn with
  | nil =>
    refine iff_of_false ?_ not_pending_nil
    cases line <;> exact Bool.false_ne_true
  | append_singleton events last ih =>
    rw [isRaised_alone_concat, pending_concat_iff, Latches.isRaised_perform, ← ih]
    by_cases hraise : last.2.1 = .raise line
    · simp [hraise]
    · by_cases htake : last.2.1 = .take line
      · simp [htake]
      · simp [hraise, htake]

namespace InOrder

/-- A call for the line was answered by its latch. -/
theorem answer_eq {i : ι} {call : Call} {answer : call.Answer}
    (h : InOrder line (before ++ (i, ⟨call, answer⟩) :: later)) (hline : call.line = line) :
    answer = ((alone line before).perform call).1 := by
  have hsplit : onLine line (before ++ (i, ⟨call, answer⟩) :: later) =
      onLine line before ++ ⟨call, answer⟩ :: onLine line later := by
    rw [onLine_append]
    exact congrArg _ (onLine_cons_of_line hline)
  rw [InOrder, hsplit, List.map_append, List.map_cons, Latches.answers_append] at h
  have hlength : (onLine line before).length =
      (Latches.answers {} ((onLine line before).map Sigma.fst)).length := by
    rw [Latches.length_answers, List.length_map]
  have hcall := (List.cons.inj (List.append_inj h hlength).2).1
  exact eq_of_heq (Sigma.mk.inj hcall).2

theorem of_append (h : InOrder line (before ++ later)) : InOrder line before := by
  rw [InOrder, onLine_append, List.map_append, Latches.answers_append] at h
  refine (List.append_inj h ?_).1
  rw [Latches.length_answers, List.length_map]

/-- Taking reports an event if, and only if, one is pending. -/
theorem take_iff {i : ι} {answer : Bool}
    (h : InOrder line (before ++ (i, ⟨.take line, answer⟩) :: later)) :
    answer = true ↔ Pending line before := by
  rw [h.answer_eq rfl]
  exact isRaised_alone_iff line before

/-- So does looking. -/
theorem look_iff {i : ι} {answer : Bool}
    (h : InOrder line (before ++ (i, ⟨.isRaised line, answer⟩) :: later)) :
    answer = true ↔ Pending line before := by
  rw [h.answer_eq rfl]
  exact isRaised_alone_iff line before

end InOrder

/-! ### Every event once -/

/-- No two takes answer for the same raise, since the first of them has taken it. -/
theorem ReportedAt.unique {n m : Nat} (h : ReportedAt line later n) (h' : ReportedAt line later m) :
    n = m := by
  have hle {n m : Nat} (h : ReportedAt line later n) (h' : ReportedAt line later m) : m ≤ n := by
    apply Nat.le_of_not_lt
    intro hlt
    obtain ⟨i, htake⟩ := h.1
    rw [← List.getElem?_take_of_lt hlt] at htake
    exact h'.2 _ (List.mem_of_getElem? htake) rfl
  exact Nat.le_antisymm (hle h' h) (hle h h')

namespace InOrder

/-- **A raise is reported once,** or nobody has asked for it yet and its latch is still set. -/
theorem reported_or_pending {raise : Event ι} (h : InOrder line (before ++ raise :: later))
    (hraise : raise.2.1 = .raise line) :
    (∃! n, ReportedAt line later n) ∨
      (∀ n, ¬ ReportedAt line later n) ∧ (∀ event ∈ later, event.2.1 ≠ .take line) ∧
        (alone line (before ++ raise :: later)).isRaised line = true := by
  -- The first take behind the raise decides, if there is one.
  cases hfind : later.find? fun event => event.2.1 = .take line with
  | none =>
    have hnone : ∀ event ∈ later, event.2.1 ≠ .take line := by
      simpa using List.find?_eq_none.mp hfind
    refine .inr ⟨?_, hnone, ?_⟩
    · rintro n ⟨⟨i, htake⟩, -⟩
      exact hnone _ (List.mem_of_getElem? htake) rfl
    · exact (isRaised_alone_iff line _).mpr ⟨before, raise, later, rfl, hraise, hnone⟩
  | some event =>
    obtain ⟨htake, middle, rest, rfl, hmiddle⟩ := List.find?_eq_some_iff_append.mp hfind
    have hmiddle : ∀ event ∈ middle, event.2.1 ≠ .take line := by simpa using hmiddle
    obtain ⟨i, call, answer⟩ := event
    obtain rfl : call = .take line := by simpa using htake
    have hbehind :
        InOrder line ((before ++ raise :: middle) ++ (i, ⟨.take line, answer⟩) :: rest) := by
      rwa [List.append_assoc, List.cons_append]
    -- The raise is still pending there, so it is reported.
    obtain rfl : answer = true := hbehind.take_iff.mpr ⟨before, raise, middle, rfl, hraise, hmiddle⟩
    have hreported : ReportedAt line (middle ++ (i, ⟨.take line, true⟩) :: rest) middle.length := by
      refine ⟨⟨i, by simp⟩, ?_⟩
      rw [List.take_left]
      exact hmiddle
    exact .inl ⟨_, hreported, fun n hn => hn.unique hreported⟩

/-- Every report uses up a raise, and a set latch has one left. -/
theorem countP_reports (h : InOrder line events) :
    events.countP (reports line) + ((alone line events).isRaised line).toNat ≤
      events.countP (raises line) := by
  -- By induction on the end: a set latch is a raise that has not been reported, so it counts as
  -- well.
  induction events using List.reverseRecOn with
  | nil => cases line <;> exact Nat.le_refl 0
  | append_singleton events last ih =>
    have hlast := ih h.of_append
    rw [List.countP_append, List.countP_append, List.countP_singleton, List.countP_singleton,
      isRaised_alone_concat, Latches.isRaised_perform]
    obtain ⟨i, call, answer⟩ := last
    cases call with
    | raise other =>
      by_cases hline : other = line
      · simp [reports, raises, hline]
        omega
      · simpa [reports, raises, hline] using hlast
    | isRaised other => simpa [reports, raises] using hlast
    | take other =>
      by_cases hline : other = line
      · -- The take answers what its latch was, and clears it.
        subst hline
        have hanswer : answer = (alone other events).isRaised other := h.answer_eq rfl
        rw [← hanswer] at hlast
        cases answer <;> simpa [reports, raises] using hlast
      · simpa [reports, raises, hline] using hlast

end InOrder

/-! ### Interleavings -/

/-- The parties have made calls on new latches, one at a time. They stand where `current` says. -/
inductive Interleaving [DecidableEq ι] (parties : ι → Program Calls α) :
    List (Event ι) → (ι → Program Calls α) → Latches → Prop where
  | start : Interleaving parties [] parties {}
  | step {events : List (Event ι)} {current : ι → Program Calls α} {latches : Latches}
      (before : Interleaving parties events current latches) (i : ι) {call : Call}
      {next : call.Answer → Program Calls α} (turn : current i = .call call next) :
      Interleaving parties (events ++ [(i, ⟨call, (latches.perform call).1⟩)])
        (Function.update current i (next (latches.perform call).1)) (latches.perform call).2

namespace Interleaving

variable [DecidableEq ι] {parties current : ι → Program Calls α}

/-- The calls for a line leave its latch as all calls do. -/
theorem isRaised_eq (h : Interleaving parties events current latches) (line : Line) :
    latches.isRaised line = (alone line events).isRaised line := by
  induction h with
  | start => rfl
  | @step events current latches before i call next turn ih =>
    rw [isRaised_alone_concat, Latches.isRaised_perform, Latches.isRaised_perform, ih]

/-- **The calls for a line get the answers that they would have got alone.** -/
theorem inOrder (h : Interleaving parties events current latches) (line : Line) :
    InOrder line events := by
  induction h with
  | start => rfl
  | @step events current latches before i call next turn ih =>
    by_cases hline : call.line = line
    · have hset : latches.isRaised call.line = (alone line events).isRaised call.line := by
        rw [hline, before.isRaised_eq line]
      rw [InOrder, onLine_concat_of_line hline, List.map_append, Latches.answers_append, ← ih]
      exact congrArg (fun answer => onLine line events ++ [⟨call, answer⟩])
        (Latches.perform_congr hset)
    · rwa [InOrder, onLine_concat_of_ne hline]

end Interleaving

/-- **No event is lost and none is counted twice,** in whatever order the parties make their calls.
It is enough that the calls for one line are in order: then a take finds an event if the line was
raised after the last take, and so does a look, which leaves it there. Each raise is reported by one
take, or is still to be reported. -/
theorem events_accounted [DecidableEq ι] (line : Line) :
    (∀ (parties current : ι → Program Calls α) (events : List (Event ι)) (latches : Latches),
      Interleaving parties events current latches →
        InOrder line events ∧ latches.isRaised line = (alone line events).isRaised line) ∧
    ∀ events : List (Event ι), InOrder line events →
      (∀ before i answer later, events = before ++ (i, ⟨.take line, answer⟩) :: later →
        (answer = true ↔ Pending line before)) ∧
      (∀ before i answer later, events = before ++ (i, ⟨.isRaised line, answer⟩) :: later →
        (answer = true ↔ Pending line before) ∧
          (Pending line (before ++ [(i, ⟨.isRaised line, answer⟩)]) ↔ Pending line before)) ∧
      (∀ before raise later, events = before ++ raise :: later → raise.2.1 = .raise line →
        (∃! n, ReportedAt line later n) ∨
          (∀ n, ¬ ReportedAt line later n) ∧ (∀ event ∈ later, event.2.1 ≠ .take line) ∧
            (alone line events).isRaised line = true) ∧
      events.countP (reports line) ≤ events.countP (raises line) := by
  refine ⟨fun parties current events latches h => ⟨h.inOrder line, h.isRaised_eq line⟩, ?_⟩
  intro events h
  refine ⟨?_, ?_, ?_, Nat.le_of_add_right_le h.countP_reports⟩
  · rintro before i answer later rfl
    exact h.take_iff
  · rintro before i answer later rfl
    refine ⟨h.look_iff, ?_⟩
    simp [pending_concat_iff]
  · rintro before raise later rfl hraise
    exact h.reported_or_pending hraise

/-- Two raises before a take are one event, and the raise behind it is another. -/
theorem events_accounted_burst :
    let raise : Program Calls Unit := Program.ask (I := Calls) (.raise .eint1)
    let handler : Program Calls Unit := raise >>= fun _ => raise >>= fun _ => raise
    let consumer : Program Calls Bool := Program.ask (I := Calls) (.take .eint1)
    let parties : Bool → Program Calls Bool := fun handling =>
      if handling then handler >>= fun _ => pure false else consumer
    let later : List (Event Bool) :=
      [(true, ⟨.raise .eint1, ()⟩), (false, ⟨.take .eint1, true⟩), (true, ⟨.raise .eint1, ()⟩)]
    let events := (true, ⟨.raise .eint1, ()⟩) :: later
    ∃ current latches,
      Interleaving parties events current latches ∧ InOrder .eint1 events ∧
        (∃! n, ReportedAt .eint1 later n) ∧ latches.isRaised .eint1 = true := by
  intro raise handler consumer parties later events
  have idle : Interleaving parties [] parties {} := .start
  have once := idle.step true rfl
  have twice := once.step true rfl
  have taken := twice.step false rfl
  have h := taken.step true rfl
  obtain ⟨hinterleaving, haccounted⟩ := events_accounted (ι := Bool) (α := Bool) .eint1
  have horder : InOrder .eint1 events := (hinterleaving _ _ _ _ h).1
  refine ⟨_, _, h, horder, ?_, rfl⟩
  obtain ⟨-, -, hraises, -⟩ := haccounted events horder
  rcases hraises [] _ later rfl rfl with hreported | ⟨-, hnone, -⟩
  · exact hreported
  · exact absurd rfl (hnone (false, ⟨.take .eint1, true⟩) (by simp [later]))

end DebugMonitor.Interrupt
