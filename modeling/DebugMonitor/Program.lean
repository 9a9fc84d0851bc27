/-!
# Programs of requests

The monitor's code never touches hardware. It is a `Program`: a tree that is either done, or makes
one request of its surroundings and goes on with the answer. What may be asked, and what the
answers are, is an `Interface`; a `Handler` answers the requests in some monad, and
`Program.handle` runs a program on it.

A lowering is a handler too: one that answers each request of one interface by a program of
another. So the flat memory becomes bus cycles, and the UART becomes memory accesses, by the same
`handle` that runs the result on a simulated chip.

A device may keep its user waiting. A wait or a serving loop therefore carries its *patience*, the
number of rounds it goes before it is `stalled`; nothing else in a program can fail, and a request
whose answer type is `Empty` never returns.
-/

namespace DebugMonitor

/-- What a program may ask for, and the answer each request gets. -/
structure Interface where
  Request : Type
  Answer : Request → Type

/-- A tree of requests, with a result of type `α` at its leaves. -/
inductive Program (I : Interface) (α : Type) where
  | done (result : α)
  | stalled
  | call (request : I.Request) (next : I.Answer request → Program I α)

/-- Monads in which a wait can be given up. -/
class Stalls (m : Type → Type) where
  stall {α : Type} : m α

class LawfulStalls (m : Type → Type) [Monad m] [Stalls m] : Prop where
  stall_bind {α β : Type} (f : α → m β) : Stalls.stall >>= f = Stalls.stall

/-- An answer to every request of an interface. -/
abbrev Handler (I : Interface) (m : Type → Type) := (request : I.Request) → m (I.Answer request)

namespace Program

variable {I : Interface} {α β γ : Type}

/-- Goes on from every leaf. A wait that was given up stays given up. -/
def bind : Program I α → (α → Program I β) → Program I β
  | done a, f => f a
  | stalled, _ => stalled
  | call request next, f => call request fun answer => (next answer).bind f

instance : Monad (Program I) where
  pure := done
  bind := bind

instance : Stalls (Program I) where
  stall := stalled

/-- The program that makes one request and returns its answer. -/
def ask (request : I.Request) : Program I (I.Answer request) :=
  call request done

/-- Runs a program, its requests answered one after the other by the handler. -/
def handle {m : Type → Type} [Monad m] [Stalls m] (h : Handler I m) : Program I α → m α
  | done a => pure a
  | stalled => Stalls.stall
  | call request next => do (next (← h request)).handle h

/-! ### Laws

Programs form a lawful monad, and handling respects it wherever a wait that was given up is
final. -/

@[simp] theorem bind_done (p : Program I α) : p.bind done = p := by
  induction p with
  | done => rfl
  | stalled => rfl
  | call request next ih => simp [bind, ih]

theorem bind_assoc (p : Program I α) (f : α → Program I β) (g : β → Program I γ) :
    (p.bind f).bind g = p.bind fun a => (f a).bind g := by
  induction p with
  | done => rfl
  | stalled => rfl
  | call request next ih => simp [bind, ih]

instance : LawfulMonad (Program I) :=
  LawfulMonad.mk' (Program I) bind_done (fun _ _ => rfl) bind_assoc

instance : LawfulStalls (Program I) where
  stall_bind _ := rfl

theorem handle_bind {m : Type → Type} [Monad m] [LawfulMonad m] [Stalls m] [LawfulStalls m]
    (h : Handler I m) (p : Program I α) (f : α → Program I β) :
    (p >>= f).handle h = p.handle h >>= fun a => (f a).handle h := by
  induction p with
  | done a => simp only [handle, LawfulMonad.pure_bind]; rfl
  | stalled => exact (LawfulStalls.stall_bind _).symm
  | call request next ih =>
    show (h request >>= fun answer => (next answer >>= f).handle h) = _
    simp only [ih, handle, LawfulMonad.bind_assoc]

end Program

end DebugMonitor
