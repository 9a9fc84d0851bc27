import DebugMonitor.Bus
import DebugMonitor.Console.LineEditor
import DebugMonitor.Memory.Layout
import DebugMonitor.Serial

/-!
# What the console runs on

A console program reads and writes memory, talks over a serial channel, keeps its line editor where
a stop cannot lose it, and may hand the chip over to its reset hardware, which is the end of it.
-/

namespace DebugMonitor

/-- Everything a console program can ask for. -/
inductive Console.Request where
  | memory (request : Memory.Request)
  | serial (request : Serial.Request)
  | editor
  | setEditor (editor : LineEditor)
  | halt
  deriving DecidableEq, Repr

abbrev Console.Request.Answer : Console.Request → Type
  | memory request => request.Answer
  | serial request => request.Answer
  | editor => LineEditor
  | setEditor _ => Unit
  | halt => Empty

abbrev Console : Interface := ⟨Console.Request, Console.Request.Answer⟩

namespace Console

def ask (request : Request) : Program Console request.Answer :=
  Program.ask (I := Console) request

/-- Accesses memory from a console program. -/
def memory {α : Type} (program : Program Memory α) : Program Console α :=
  program.handle fun request => ask (.memory request)

def receive : Program Console UInt8 := ask (.serial .receive)

def send (byte : UInt8) : Program Console Unit := ask (.serial (.send byte))

def flush : Program Console Unit := ask (.serial .flush)

def editor : Program Console LineEditor := ask .editor

def setEditor (editor : LineEditor) : Program Console Unit := ask (.setEditor editor)

/-- Halts the chip, after which there is nothing to return to. -/
def halt {α : Type} : Program Console α := do
  nomatch ← ask .halt

def sendAll : Bytes → Program Console Unit
  | [] => pure ()
  | byte :: rest => do
    send byte
    sendAll rest

/-- Sends a text, its line feeds expanded. -/
def say (text : Text) : Program Console Unit := sendAll text.wire

/-- Runs console programs on a bus, a serial channel and a place for the editor. -/
def handler {m : Type → Type} [Monad m] [Stalls m] (layout : Layout) (bus : Handler Bus m)
    (serial : Handler Serial m) (getEditor : m LineEditor) (putEditor : LineEditor → m Unit) :
    Handler Console m
  | .memory request => (layout.access request).handle bus
  | .serial request => serial request
  | .editor => getEditor
  | .setEditor editor => putEditor editor
  | .halt => bus .halt

end Console

end DebugMonitor
