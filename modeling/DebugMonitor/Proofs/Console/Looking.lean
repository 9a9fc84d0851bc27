import DebugMonitor.Console.Monitor
import DebugMonitor.Proofs.Simulation

/-!
# Programs that only look

Many commands read memory and say what they found, and that is all. Such a program is `Looking`: it
never waits, it takes no input, and it asks for nothing that could change the memory. This module
goes through the commands and tells which of them look only.
-/

namespace DebugMonitor

variable {α β : Type}

/-! ### Programs in general -/

theorem Program.run_liftM {I : Interface} {ε : Type} (p : Program I α) :
    (liftM p : ExceptT ε (Program I) α).run = p >>= fun a => pure (.ok a) := rfl

namespace Program.Within

variable {I : Interface} {allowed : I.Request → Prop}

/-- A program may always be allowed more. -/
theorem mono {more : I.Request → Prop} (hmore : ∀ request, allowed request → more request)
    {p : Program I α} (hp : p.Within allowed) : p.Within more := by
  induction p with
  | done a => trivial
  | stalled => exact hp
  | call request next ih => exact ⟨hmore request hp.1, fun answer => ih answer (hp.2 answer)⟩

theorem and {also : I.Request → Prop} {p : Program I α} (hp : p.Within allowed)
    (halso : p.Within also) : p.Within fun request => allowed request ∧ also request := by
  induction p with
  | done a => trivial
  | stalled => exact hp
  | call request next ih =>
    exact ⟨⟨hp.1, halso.1⟩, fun answer => ih answer (hp.2 answer) (halso.2 answer)⟩

/-- A program that may fail makes only allowed requests if its parts do. -/
theorem bindExcept {ε : Type} {x : ExceptT ε (Program I) α} {f : α → ExceptT ε (Program I) β}
    (hx : x.run.Within allowed) (hf : ∀ a, (f a).run.Within allowed) :
    (x >>= f).run.Within allowed := by
  show (x.run >>= ExceptT.bindCont f).Within allowed
  refine .bind hx fun found => ?_
  cases found with
  | ok a => exact hf a
  | error failure => trivial

theorem lift {ε : Type} {p : Program I α} (hp : p.Within allowed) :
    (liftM p : ExceptT ε (Program I) α).run.Within allowed :=
  .bind hp fun _ => .pure _

end Program.Within

namespace Program.Within

variable {allowed : Console.Request → Prop}

theorem sendAll (hsend : ∀ b, allowed (.serial (.send b))) (bytes : Bytes) :
    (Console.sendAll bytes).Within allowed := by
  induction bytes with
  | nil => trivial
  | cons b rest ih => exact .bind (.ask (hsend b)) fun _ => ih

/-- A program on the memory asks the console for no more than it asks the memory. -/
theorem memory {accesses : Memory.Request → Prop}
    (haccess : ∀ request, accesses request → allowed (.memory request)) {p : Program Memory α}
    (hp : p.Within accesses) : (Console.memory p).Within allowed := by
  apply hp.handle
  intro request hrequest
  exact .ask (haccess request hrequest)

end Program.Within

/-! ### Reading memory -/

namespace Memory

def Request.IsRead : Request → Prop
  | .read _ => True
  | .write _ _ => False

/-- A program on the memory that writes nothing. -/
abbrev Reads (p : Program Memory α) : Prop := p.Within Request.IsRead

namespace Reads

theorem read (address : UInt32) : Reads (Memory.read address) := .ask trivial

theorem readBytes (address : UInt32) (count : Nat) : Reads (readBytes address count) := by
  induction count generalizing address with
  | zero => exact .pure _
  | succ count ih => exact .bind (read address) fun _ => .bind (ih _) fun _ => .pure _

theorem readWord (address : UInt32) : Reads (readWord address) :=
  .bind (readBytes address 4) fun _ => .pure _

theorem width (width : Width) (address : UInt32) : Reads (width.read address) := by
  cases width with
  | byte => exact .bind (read address) fun _ => .pure _
  | word => exact readWord address

theorem readVersion (config : Config) : Reads config.readVersion := by
  rw [Config.readVersion]
  split
  · exact .bind (read _) fun _ => .pure _
  · trivial

theorem readClock (config : Config) : Reads config.readClock := by
  rw [Config.readClock]
  split
  · exact .bind (read _) fun _ => .pure _
  · trivial

end Reads

end Memory

/-! ### Looking -/

/-- Requests that read a byte of memory, or send one to the terminal. -/
def Console.Request.Looks : Console.Request → Prop
  | .memory request => request.IsRead
  | .serial (.send _) => True
  | .serial .receive | .serial .flush | .editor | .setEditor _ | .halt => False

abbrev Looking (p : Program Console α) : Prop := p.Within Console.Request.Looks

namespace Looking

theorem memory {p : Program Memory α} (hp : Memory.Reads p) : Looking (Console.memory p) :=
  Program.Within.memory (fun _ hread => hread) hp

theorem sendAll (bytes : Bytes) : Looking (Console.sendAll bytes) :=
  Program.Within.sendAll (fun _ => trivial) bytes

theorem say (text : Text) : Looking (Console.say text) := sendAll text.wire

theorem showValue (width : Width) (address : UInt32) : Looking (Monitor.showValue width address) :=
  .bind (memory (.width width address)) fun _ => say _

theorem showVersion (monitor : Monitor) : Looking monitor.showVersion :=
  .bind (memory (.readVersion _)) fun _ => .bind (memory (.readClock _)) fun _ => say _

theorem readCommand (width : Width) (arguments : List Text) :
    Looking (Monitor.readCommand width arguments).run := by
  cases arguments with
  | nil => trivial
  | cons token rest =>
    refine .bindExcept ?_ fun address => .lift (showValue width address)
    cases Monitor.parseAddress token <;> trivial

end Looking

end DebugMonitor
