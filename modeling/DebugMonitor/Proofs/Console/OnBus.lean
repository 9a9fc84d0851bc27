import DebugMonitor.Proofs.Console.Desk
import DebugMonitor.Proofs.Trace

/-!
# What a console program comes down to

The desk answers everything that is not for the memory, and accesses to the memory are bus cycles.
So beside a desk a console program comes down to a program on the bus alone (`Console.onBus`), which
returns the desk as it stands then. The answers of the bus are left open in it. Two console programs
that come down to the same one make the same calls in the same order, whatever the bus answers.
-/

namespace DebugMonitor

section

variable {m : Type → Type} [Monad m] [Stalls m]

instance : Stalls (ExceptT Stop m) where
  stall := ExceptT.mk Stalls.stall

instance [LawfulStalls m] : LawfulStalls (ExceptT Stop m) where
  stall_bind f := LawfulStalls.stall_bind (ExceptT.bindCont f)

end

variable {I : Interface} {α β : Type}

/-- A program that passes every request on is the program itself. -/
theorem Program.handle_lift_ask (p : Program I α) :
    p.handle (fun request => (ExceptT.lift (ask request) : ExceptT Stop (Program I) _)) =
      ExceptT.lift p := by
  induction p with
  | done a => rfl
  | stalled => rfl
  | call request next ih =>
    simp only [handle, ih]
    rfl

namespace Console

/-- The bus program that a console program is beside a desk. -/
def onBus (layout : Layout) (desk : Desk) (p : Program Console α) :
    Program Bus (Except Stop (α × Desk)) :=
  (p.handle (Desk.console layout fun request => ExceptT.lift (Bus.ask request)) desk).run

variable (layout : Layout) (desk : Desk)

/-- A program goes on with the desk that its first part has left. -/
theorem onBus_bind (p : Program Console α) (f : α → Program Console β) :
    onBus layout desk (p >>= f) = onBus layout desk p >>= fun
      | .ok (a, left) => onBus layout left (f a)
      | .error stop => pure (.error stop) := by
  rw [onBus, Desk.handle_bind, ExceptT.run_bind]
  congr 1
  funext found
  cases found <;> rfl

/-- What only accesses the memory and sends comes down to the accesses. -/
theorem onBus_of_sends {p : Program Console α} {effect : Program Memory (α × Bytes)}
    (h : Sends p effect) :
    onBus layout desk p =
      layout.lower effect >>= fun entry => pure (.ok (entry.1, desk.display entry.2)) := by
  have hasked : (layout.lower effect).handle (fun request =>
      (ExceptT.lift (Bus.ask request) : ExceptT Stop (Program Bus) _)) =
        ExceptT.lift (layout.lower effect) :=
    Program.handle_lift_ask _
  rw [onBus, h, hasked, ExceptT.run_bind, ExceptT.run_lift, map_eq_pure_bind, bind_assoc]
  rfl

/-! ### On any bus -/

variable {σ : Type}

/-- What the desk stops, is stopped. -/
def resume : Except Stop α → EStateM Stop σ α
  | .ok a => pure a
  | .error stop => throw stop

variable {layout desk} (bus : Handler Bus (EStateM Stop σ))

/-- A single request, on the bus and then on the desk. -/
theorem resume_ask (request : Request) :
    Desk.console layout bus request desk =
      (onBus layout desk (ask request)).handle bus >>= resume := by
  -- On the side of the bus, a request runs on a bus whose calls are still to be asked.
  have hask : onBus layout desk (ask request) =
      (Desk.console layout (fun call => ExceptT.lift (Bus.ask call)) request desk).run := by
    rw [onBus, ask, Program.handle_ask]
  cases request with
  | memory request =>
    have hcalls := onBus_of_sends layout desk (.memory (Memory.ask request))
    have hmemory : Console.memory (Memory.ask request) = ask (.memory request) :=
      Program.handle_ask _ _
    have haccess : layout.lower (Memory.ask request) = layout.access request :=
      Program.handle_ask _ _
    -- The desk stands still while the calls of an access are made.
    have hlift := Desk.handle_lift bus (layout.access request) desk
    rw [hmemory, Layout.lower_bind, haccess] at hcalls
    rw [hcalls, bind_assoc, Program.handle_bind, bind_assoc]
    exact hlift
  | serial request =>
    have hserial : onBus layout desk (ask (.serial request)) =
        (Desk.serial request desk : ExceptT Stop (Program Bus) _).run := hask
    rw [hserial]
    show Desk.serial request desk = _
    rw [Desk.serial, Desk.serial]
    cases Sim.Terminal.serial request desk.terminal <;> rfl
  | editor => rfl
  | setEditor editor => rfl
  -- The one call that ends the program has no answer, so nothing is resumed.
  | halt =>
    rw [hask]
    show (bus .halt >>= fun answer => pure (answer, desk)) =
      (bus .halt >>= fun answer => Program.handle bus _) >>= resume
    rw [bind_assoc]
    congr 1

/-- **Run on any bus, a console program does what it comes down to.** -/
theorem handle_onBus (p : Program Console α) :
    p.handle (Desk.console layout bus) desk = (onBus layout desk p).handle bus >>= resume := by
  induction p generalizing desk with
  | done a => rfl
  | stalled => rfl
  | call request next ih =>
    have hcalls : onBus layout desk (.call request next) = _ :=
      onBus_bind layout desk (ask request) next
    rw [hcalls, Program.handle_bind, bind_assoc]
    show Desk.console layout bus request desk >>= _ = _
    rw [resume_ask, bind_assoc]
    congr 1
    funext found
    -- A request that stops says so as an answer on the bus, and the rest is not asked.
    cases found with
    | ok entry => exact ih entry.1
    | error stop => rfl

/-! ### Calls -/

/-- The calls that a console program makes, in order, on a bus that answers in its own way. -/
def calls (layout : Layout) (bus : Handler Bus (EStateM Stop σ)) (desk : Desk)
    (p : Program Console α) (s : σ) : List Bus.Request :=
  (onBus layout desk p).trace bus s

theorem calls_of_sends {p : Program Console α} {effect : Program Memory (α × Bytes)}
    (h : Sends p effect) (s : σ) :
    calls layout bus desk p s = (layout.lower effect).trace bus s := by
  rw [calls, onBus_of_sends layout desk h]
  exact Program.trace_bind_pure _ _ s

/-- Calls of two parts come one after the other. -/
theorem calls_bind_ok {p : Program Console α} {f : α → Program Console β} {a : α} {left : Desk}
    {s t : σ} (h : (onBus layout desk p).handle bus s = .ok (.ok (a, left)) t) :
    calls layout bus desk (p >>= f) s =
      calls layout bus desk p s ++ calls layout bus left (f a) t := by
  rw [calls, onBus_bind, Program.trace_bind_ok h]
  rfl

theorem calls_halt (s : σ) : calls layout bus desk (halt : Program Console α) s = [.halt] := by
  have hhalt : onBus layout desk (halt : Program Console α) =
      .call (I := Bus) .halt fun never => never.elim := by
    show Program.call (I := Bus) .halt _ = _
    congr 1
    funext never
    exact never.elim
  rw [calls, hhalt, Program.trace]
  cases bus .halt s with
  | ok never t => exact never.elim
  | error stop t => rfl

end Console

end DebugMonitor
