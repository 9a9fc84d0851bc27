import DebugMonitor.Proofs.Console.Execution
import DebugMonitor.Proofs.Trace

/-!
# More patience changes nothing

A loop goes as many rounds as its patience allows for. With more of it the loop does the same in its
first rounds, and goes on where it has given up before. So a program that is as patient as another,
or more so, is that program with something in the place of the waits that were given up
(`Prolonged`), and a run that has not given up any of them is the same with both (`handle_eq`).

The monitor's patience is that of two loops, one inside the other (`prolonged_serve`).
-/

namespace DebugMonitor

variable {I : Interface} {α β σ : Type}

namespace Program

/-- The second program does what the first one does, and something else where that has given up. -/
inductive Prolonged : Program I α → Program I α → Prop where
  | done (a : α) : Prolonged (done a) (done a)
  | stalled (later : Program I α) : Prolonged stalled later
  | call (request : I.Request) {next later : I.Answer request → Program I α}
      (prolonged : ∀ answer, Prolonged (next answer) (later answer)) :
      Prolonged (call request next) (call request later)

namespace Prolonged

theorem refl (p : Program I α) : Prolonged p p := by
  induction p with
  | done a => exact .done a
  | stalled => exact .stalled _
  | call request next ih => exact .call request ih

/-- More patience in either part is more patience in all. -/
theorem bind {p q : Program I α} {f g : α → Program I β} (hpq : Prolonged p q)
    (hfg : ∀ a, Prolonged (f a) (g a)) : Prolonged (p >>= f) (q >>= g) := by
  induction hpq with
  | done a => exact hfg a
  | stalled later => exact .stalled _
  | call request prolonged ih => exact .call request ih

/-- What goes on after the same beginning. -/
theorem after (p : Program I α) {f g : α → Program I β} (hfg : ∀ a, Prolonged (f a) (g a)) :
    Prolonged (p >>= f) (p >>= g) :=
  (refl p).bind hfg

/-- **A run that did not give up is not prolonged.** -/
theorem handle_eq {p q : Program I α} (hpq : Prolonged p q) {h : Handler I (EStateM Stop σ)} {s : σ}
    (hgoing : ∀ t, p.handle h s ≠ .error .stalled t) : q.handle h s = p.handle h s := by
  induction hpq generalizing s with
  | done a => rfl
  | stalled later => exact absurd rfl (hgoing s)
  | call request prolonged ih =>
    rw [handle_call] at hgoing
    rw [handle_call, handle_call]
    cases hrequest : h request s with
    | ok answer t =>
      rw [hrequest] at hgoing
      exact ih answer hgoing
    | error stop t => rfl

end Prolonged

end Program

open Program (Prolonged)

/-! ### A bulk session -/

theorem Bulk.Session.prolonged_serve (session : Session) {fewer more : Nat} (h : fewer ≤ more) :
    Prolonged (session.serve fewer) (session.serve more) := by
  induction fewer generalizing session more with
  | zero => exact .stalled _
  | succ fewer ih =>
    obtain ⟨more, rfl⟩ := Nat.exists_eq_succ_of_ne_zero (Nat.ne_zero_of_lt h)
    refine .after _ fun byte => .after _ fun ⟨flow, session⟩ => ?_
    cases flow with
    | exit => exact .refl _
    | more => exact ih session (Nat.le_of_succ_le_succ h)

/-! ### The monitor -/

namespace Monitor

variable (monitor : Monitor) {patience : Nat}

/-- The same monitor, which is patient in its own way. -/
def withPatience (patience : Nat) : Monitor := { monitor with patience }

theorem prolonged_run (h : monitor.patience ≤ patience) (command : Command)
    (arguments : List Text) :
    Prolonged (monitor.run command arguments).run
      ((monitor.withPatience patience).run command arguments).run := by
  cases command with
  | bulk =>
    refine .bind (.after _ fun _ => ?_) fun _ => .refl _
    exact (Bulk.Session.start monitor.config.layout).prolonged_serve h
  | _ => exact .refl _

/-- A more patient monitor executes every line alike, unless the other gave up. -/
theorem prolonged_execute (h : monitor.patience ≤ patience) (line : Text) :
    Prolonged (monitor.execute line) ((monitor.withPatience patience).execute line) := by
  cases htokens : Console.tokens line with
  | nil =>
    rw [execute_blank _ htokens, execute_blank _ htokens]
    exact .refl _
  | cons name arguments =>
    cases hname : Command.ofName? name with
    | none =>
      rw [execute_unknown _ htokens hname, execute_unknown _ htokens hname]
      exact .refl _
    | some command =>
      obtain rfl := Command.eq_name_of_ofName? hname
      rw [execute_command _ htokens, execute_command _ htokens]
      exact .bind (monitor.prolonged_run h command arguments) fun _ => .refl _

theorem prolonged_poll (h : monitor.patience ≤ patience) :
    Prolonged monitor.poll (monitor.withPatience patience).poll := by
  refine .after _ fun byte => .after _ fun editor => .after _ fun _ => .after _ fun _ =>
    .after _ fun _ => ?_
  cases (editor.press byte).committed with
  | none => exact .refl _
  | some line =>
    exact .bind (.bind (monitor.prolonged_execute h _) fun _ => .refl _) fun _ => .refl _

theorem prolonged_pollForever (h : monitor.patience ≤ patience) {fewer more : Nat}
    (hrounds : fewer ≤ more) :
    Prolonged (monitor.pollForever fewer : Program Console α)
      ((monitor.withPatience patience).pollForever more) := by
  induction fewer generalizing more with
  | zero => exact .stalled _
  | succ fewer ih =>
    obtain ⟨more, rfl⟩ := Nat.exists_eq_succ_of_ne_zero (Nat.ne_zero_of_lt hrounds)
    exact .bind (monitor.prolonged_poll h) fun _ => ih (Nat.le_of_succ_le_succ hrounds)

/-- A more patient monitor serves as the less patient one does, and longer if need be. -/
theorem prolonged_serve (h : monitor.patience ≤ patience) :
    Prolonged (monitor.serve : Program Console α) (monitor.withPatience patience).serve :=
  .after _ fun _ => monitor.prolonged_pollForever h h

end Monitor

end DebugMonitor
