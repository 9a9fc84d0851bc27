import DebugMonitor.Console.Basic
import DebugMonitor.Proofs.Simulation
import DebugMonitor.Sim.Terminal

/-!
# A desk beside any bus

A desk is what the console has besides a chip: a terminal and the place of the line editor. It can
stand beside any bus, in any monad the bus works in, and neither can be reached through the other.

So it does not matter when bytes are sent. A program that accesses the memory and sends, but does
not receive, is as good as the accesses alone with everything sent at the end: `Console.Sends` says
which accesses and which bytes, and is put together like the program.
-/

namespace DebugMonitor

open Sim (Terminal)

/-- The terminal and the editor of a station, without its chip. -/
structure Desk where
  terminal : Terminal := {}
  editor : LineEditor := {}

instance {σ : Type} {m : Type → Type} [Stalls m] : Stalls (StateT σ m) where
  stall := fun _ => Stalls.stall

instance {σ : Type} {m : Type → Type} [Monad m] [Stalls m] [LawfulStalls m] :
    LawfulStalls (StateT σ m) where
  stall_bind _ := funext fun _ => LawfulStalls.stall_bind _

@[simp] theorem Layout.lower_pure {α : Type} (layout : Layout) (a : α) :
    layout.lower (pure a) = pure a := rfl

@[simp] theorem Layout.lower_bind {α β : Type} (layout : Layout) (program : Program Memory α)
    (next : α → Program Memory β) :
    layout.lower (program >>= next) = layout.lower program >>= fun a => layout.lower (next a) :=
  Program.handle_bind layout.access program next

namespace Desk

/-- The desk after bytes were sent to its terminal. -/
def display (desk : Desk) (bytes : Bytes) : Desk :=
  { desk with terminal := { desk.terminal with shown := bytes.reverse ++ desk.terminal.shown } }

/-- The desk with something else left to be typed. -/
def withTyped (desk : Desk) (typed : Bytes) : Desk :=
  { desk with terminal := { desk.terminal with typed } }

@[simp] theorem display_nil (desk : Desk) : desk.display [] = desk := rfl

theorem display_append (desk : Desk) (s t : Bytes) :
    desk.display (s ++ t) = (desk.display s).display t := by
  simp [display]

variable {m : Type → Type} [Monad m] [Stalls m] [MonadExceptOf Stop m]

/-- The serial channel of a desk. -/
def serial : Handler Serial (StateT Desk m) := fun request desk =>
  match Terminal.serial request desk.terminal with
  | .ok answer terminal => pure (answer, { desk with terminal })
  | .error stop _ => throw stop

/-- The console of a desk, on a bus that knows nothing of it. -/
def console (layout : Layout) (bus : Handler Bus m) : Handler Console (StateT Desk m) :=
  Console.handler layout (fun request => StateT.lift (bus request)) serial (Desk.editor <$> get)
    fun editor => modify ({ · with editor })

/-! ### The requests of a console, one by one -/

variable [LawfulMonad m] {α β : Type} (layout : Layout) (bus : Handler Bus m)

theorem handle_receive {desk : Desk} {byte : UInt8} {rest : Bytes}
    (h : desk.terminal.typed = byte :: rest) :
    Console.receive.handle (console layout bus) desk = pure (byte, desk.withTyped rest) := by
  obtain ⟨⟨typed, shown, flushes⟩, editor⟩ := desk
  obtain rfl : typed = byte :: rest := h
  rw [Console.receive, Console.ask, Program.handle_ask]
  rfl

theorem handle_send (byte : UInt8) (desk : Desk) :
    (Console.send byte).handle (console layout bus) desk = pure ((), desk.display [byte]) := by
  rw [Console.send, Console.ask, Program.handle_ask]
  rfl

variable [LawfulStalls m]

omit [MonadExceptOf Stop m] in
/-- What runs on the bus alone leaves the desk alone. -/
theorem handle_lift {I : Interface} (h : Handler I m) (program : Program I α) (desk : Desk) :
    program.handle (fun request => StateT.lift (h request) : Handler I (StateT Desk m)) desk =
      (program.handle h >>= fun a => pure (a, desk)) := by
  induction program with
  | done a =>
    show pure (a, desk) = (pure a >>= fun a => pure (a, desk))
    rw [LawfulMonad.pure_bind]
  | stalled => exact (LawfulStalls.stall_bind _).symm
  | call request next ih =>
    show (h request >>= fun a => pure (a, desk)) >>= (fun entry =>
      (next entry.1).handle (fun request => StateT.lift (h request)) entry.2) = _
    simp only [LawfulMonad.bind_assoc, LawfulMonad.pure_bind, ih, Program.handle]

theorem handle_memory (program : Program Memory α) (desk : Desk) :
    (Console.memory program).handle (console layout bus) desk =
      ((layout.lower program).handle bus >>= fun a => pure (a, desk)) := by
  -- Both sides are runs of the same program, one request at a time.
  rw [Console.memory, Program.handle_handle, Layout.lower, Program.handle_handle]
  have hask : (fun request => (Console.ask (.memory request)).handle (console layout bus) :
      Handler Memory (StateT Desk m)) =
      fun request => StateT.lift ((layout.access request).handle bus) := by
    funext request desk
    rw [Console.ask, Program.handle_ask]
    exact handle_lift bus (layout.access request) desk
  rw [hask]
  exact handle_lift _ program desk

theorem handle_bind (program : Program Console α) (next : α → Program Console β) (desk : Desk) :
    (program >>= next).handle (console layout bus) desk =
      (program.handle (console layout bus) desk >>= fun entry =>
        (next entry.1).handle (console layout bus) entry.2) := by
  rw [Program.handle_bind]
  rfl

theorem handle_sendAll (bytes : Bytes) (desk : Desk) :
    (Console.sendAll bytes).handle (console layout bus) desk = pure ((), desk.display bytes) := by
  induction bytes generalizing desk with
  | nil => rfl
  | cons byte rest ih =>
    rw [Console.sendAll, handle_bind, handle_send, LawfulMonad.pure_bind, ih, ← display_append,
      List.singleton_append]

end Desk

/-! ### Programs that access and send -/

namespace Console

/-- Beside any bus, the console program makes the accesses of the memory program and returns the
same, and the desk has the bytes that are returned beside it. -/
def Sends {α : Type} (program : Program Console α) (effect : Program Memory (α × Bytes)) : Prop :=
  ∀ (m : Type → Type) [Monad m] [LawfulMonad m] [Stalls m] [LawfulStalls m] [MonadExceptOf Stop m]
    (layout : Layout) (bus : Handler Bus m) (desk : Desk),
    program.handle (Desk.console layout bus) desk =
      ((layout.lower effect).handle bus >>= fun entry => pure (entry.1, desk.display entry.2))

namespace Sends

variable {α β : Type}

theorem pure (a : α) : Sends (Pure.pure a) (Pure.pure (a, [])) := by
  intro m _ _ _ _ _ layout bus desk
  rw [Layout.lower_pure, Program.handle_pure, Program.handle_pure, LawfulMonad.pure_bind]
  rfl

theorem memory (program : Program Memory α) :
    Sends (memory program) (program >>= fun a => Pure.pure (a, [])) := by
  intro m _ _ _ _ _ layout bus desk
  rw [Desk.handle_memory, Layout.lower_bind, Program.handle_bind, LawfulMonad.bind_assoc]
  simp

theorem sendAll (bytes : Bytes) : Sends (sendAll bytes) (Pure.pure ((), bytes)) := by
  intro m _ _ _ _ _ layout bus desk
  rw [Desk.handle_sendAll, Layout.lower_pure, Program.handle_pure, LawfulMonad.pure_bind]

/-- What goes on after a program that sends may depend on its result. -/
theorem bind {program : Program Console α} {next : α → Program Console β}
    {effect : Program Memory (α × Bytes)} {later : α → Program Memory (β × Bytes)}
    (first : Sends program effect) (rest : ∀ a, Sends (next a) (later a)) :
    Sends (program >>= next) (effect >>= fun entry => later entry.1 >>= fun last =>
      Pure.pure (last.1, entry.2 ++ last.2)) := by
  intro m _ _ _ _ _ layout bus desk
  have hrest := fun a desk => rest a m layout bus desk
  rw [Desk.handle_bind, first m layout bus desk, Layout.lower_bind, Program.handle_bind]
  simp only [hrest, Layout.lower_bind, Layout.lower_pure, LawfulMonad.bind_assoc,
    LawfulMonad.pure_bind, Program.handle_bind, Program.handle_pure, Desk.display_append]

/-- Where the result is known beforehand, only what follows that result counts. -/
theorem andThen {program : Program Console α} (next : α → Program Console β)
    {replies : Program Memory Bytes} {a : α} {later : Program Memory (β × Bytes)}
    (first : Sends program (replies >>= fun s => Pure.pure (a, s))) (rest : Sends (next a) later) :
    Sends (program >>= next) (replies >>= fun s => later >>= fun last =>
      Pure.pure (last.1, s ++ last.2)) := by
  intro m _ _ _ _ _ layout bus desk
  have hrest := fun desk => rest m layout bus desk
  rw [Desk.handle_bind, first m layout bus desk, Layout.lower_bind, Layout.lower_bind,
    Program.handle_bind, Program.handle_bind]
  simp only [hrest, Layout.lower_bind, Layout.lower_pure, LawfulMonad.bind_assoc,
    LawfulMonad.pure_bind, Program.handle_bind, Program.handle_pure, Desk.display_append]

/-- A program that sends nothing. -/
theorem silent {program : Program Console α} {effect : Program Memory Unit} {a : α}
    (h : Sends program (effect >>= fun _ => Pure.pure (a, []))) :
    Sends program ((effect >>= fun _ => Pure.pure []) >>= fun s => Pure.pure (a, s)) := by
  simpa using h

theorem followed {first next : Program Console Unit} {p q : Program Memory Bytes}
    (hfirst : Sends first (p >>= fun s => Pure.pure ((), s)))
    (hnext : Sends next (q >>= fun t => Pure.pure ((), t))) :
    Sends (first >>= fun _ => next) (p >>= fun s => q >>= fun t => Pure.pure ((), s ++ t)) := by
  have h := andThen (fun _ => next) hfirst hnext
  simpa using h

theorem returning {program : Program Console Unit} {p : Program Memory Bytes}
    (h : Sends program (p >>= fun s => Pure.pure ((), s))) (a : α) :
    Sends (program >>= fun _ => Pure.pure a) (p >>= fun s => Pure.pure (a, s)) := by
  simpa using h.bind fun _ => pure a

end Sends

end Console

end DebugMonitor
