import DebugMonitor.Proofs.Station.Turns

/-!
# Nothing unsent at a halt

A channel may hold back what is sent until the monitor flushes it or receives. A chip that halts
does neither any more, so the monitor has to flush before it asks for that. It does: the one command
that halts the chip announces itself, flushes, and sends nothing after that (`Flushes.serve`).
-/

namespace DebugMonitor

open Bulk (Session)

variable {α β : Type}

/-- Whether something that was sent may be held back after a request, by whether it may before. -/
def Console.Request.holds (held : Bool) : Console.Request → Bool
  | .serial (.send _) => true
  | .serial .receive | .serial .flush => false
  | .memory _ | .editor | .setEditor _ | .halt => held

/-- The program does not halt the chip while something may be held back. -/
def Flushes (held : Bool) : Program Console α → Prop
  | .done _ | .stalled => True
  | .call request next =>
    (request = .halt → held = false) ∧ ∀ answer, Flushes (request.holds held) (next answer)

namespace Flushes

variable {held : Bool}

theorem pure (a : α) : Flushes held (Pure.pure a : Program Console α) := trivial

/-- It is easier where nothing is held back at first. -/
theorem mono {p : Program Console α} (hp : Flushes true p) : Flushes held p := by
  cases held with
  | true => exact hp
  | false =>
    induction p with
    | done a => trivial
    | stalled => trivial
    | call request next ih =>
      refine ⟨fun _ => rfl, fun answer => ?_⟩
      have hnext := hp.2 answer
      cases request with
      | memory request => exact ih answer hnext
      | serial request => cases request <;> exact hnext
      | editor => exact ih answer hnext
      | setEditor editor => exact ih answer hnext
      | halt => exact answer.elim

theorem bind {p : Program Console α} {f : α → Program Console β} (hp : Flushes held p)
    (hf : ∀ a, Flushes true (f a)) : Flushes held (p >>= f) := by
  induction p generalizing held with
  | done a => exact (hf a).mono
  | stalled => trivial
  | call request next ih => exact ⟨hp.1, fun answer => ih answer (hp.2 answer)⟩

/-- A program that neither waits for input nor halts need not flush. -/
theorem of_quiet {p : Program Console α} (hp : Quiet p) : Flushes held p := by
  induction p generalizing held with
  | done a => trivial
  | stalled => trivial
  | call request next ih =>
    refine ⟨?_, fun answer => ih answer (hp.2 answer)⟩
    rintro rfl
    exact hp.1.elim

theorem ask_bind {request : Console.Request} {f : request.Answer → Program Console α}
    (hhalt : request = .halt → held = false)
    (hf : ∀ answer, Flushes (request.holds held) (f answer)) :
    Flushes held (Console.ask request >>= f) :=
  ⟨hhalt, hf⟩

/-- Nothing is sent while the memory is accessed. -/
theorem memory_bind (p : Program Memory α) {f : α → Program Console β}
    (hf : ∀ a, Flushes held (f a)) : Flushes held (Console.memory p >>= f) := by
  induction p with
  | done a => exact hf a
  | stalled => trivial
  | call request next ih => exact ⟨nofun, fun answer => ih answer⟩

/-- Whatever is held back comes out first. -/
theorem flush_bind {p : Program Console α} (hp : Flushes false p) :
    Flushes held (Console.flush >>= fun _ => p) :=
  ask_bind nofun fun _ => hp

theorem receive_bind {f : UInt8 → Program Console α} (hf : ∀ b, Flushes false (f b)) :
    Flushes held (Console.receive >>= f) :=
  ask_bind nofun hf

theorem halt : Flushes false (Console.halt : Program Console α) := ⟨fun _ => rfl, nofun⟩

/-! ### The monitor -/

variable (monitor : Monitor)

/-- A reset flushes before it halts. -/
theorem reset (toRom : Bool) : Flushes held (monitor.reset toRom : Program Console α) := by
  rw [Monitor.reset_eq, Console.leave]
  exact .bind (of_quiet (.say _)) fun _ => flush_bind (memory_bind _ fun _ => halt)

/-- A bulk session receives and never halts. -/
theorem serveSession (session : Session) (patience : Nat) :
    Flushes held (session.serve patience) := by
  induction patience generalizing session held with
  | zero => trivial
  | succ patience ih =>
    refine receive_bind fun b => .bind (of_quiet ?_) fun ⟨flow, session⟩ => ?_
    · exact .bind (Quiet.next _ b _) fun _ => .pure _
    · cases flow with
      | exit => trivial
      | more => exact ih session

theorem execute (line : Bytes) : Flushes held (monitor.execute (Text.ofBytes line)) := by
  by_cases hreset : Console.firstToken line = some ("reset" : Text)
  · obtain ⟨arguments, htokens⟩ := List.head?_eq_some_iff.mp hreset
    rw [monitor.execute_of_reset htokens]
    exact reset monitor _
  · by_cases hbulk : Console.firstToken line = some ("bmo" : Text)
    · obtain ⟨arguments, htokens⟩ := List.head?_eq_some_iff.mp hbulk
      rw [Sim.Station.execute_bulk monitor htokens]
      exact .bind (.bind (of_quiet (.say _)) fun _ => serveSession _ _) fun _ => .pure _
    · exact of_quiet (Sim.Station.quiet_execute monitor hbulk hreset)

theorem poll : Flushes held monitor.poll := by
  refine receive_bind fun b => ask_bind nofun fun editor => ask_bind nofun fun _ => ?_
  refine .bind (of_quiet (.sendAll _)) fun _ => ask_bind nofun fun _ => ?_
  cases (editor.press b).committed with
  | none => trivial
  | some line =>
    exact .bind (.bind (execute monitor line) fun _ => .pure _) fun _ => of_quiet (.say _)

theorem pollForever (patience : Nat) :
    Flushes held (monitor.pollForever patience : Program Console α) := by
  induction patience generalizing held with
  | zero => trivial
  | succ patience ih => exact .bind (poll monitor) fun _ => ih

/-- **The monitor flushes before it halts the chip.** -/
theorem serve : Flushes held (monitor.serve : Program Console α) :=
  .bind (of_quiet (.say _)) fun _ => pollForever monitor _

end Flushes

end DebugMonitor
