import DebugMonitor.Proofs.Console.Looking
import DebugMonitor.Proofs.Numeral

/-!
# What a command line comes down to

A line is cut into tokens, the first of them names a command, and the others are its arguments.
Where the arguments are good, a command is a few requests and no more: reading shows the value that
is there, and writing shows it, changes it and shows it again. A command that fails says so, and has
not written anything before. Nothing comes after a reset.
-/

namespace DebugMonitor

/-! ### Names -/

/-- Every command can be called by its name. -/
theorem Command.ofName?_name (command : Command) : ofName? command.name = some command := by
  rcases command with _ | _ | width | width | _ | _
  case read => cases width <;> decide
  case write => cases width <;> decide
  all_goals decide

/-- A command has no other name. -/
theorem Command.eq_name_of_ofName? {text : Text} {command : Command}
    (h : ofName? text = some command) : text = command.name := by
  have hname := List.find?_some h
  exact (eq_of_beq hname).symm

/-- A name has no blanks, so it is one token. -/
theorem Command.isWord_name (command : Command) : Console.IsWord command.name := by
  rcases command with _ | _ | width | width | _ | _
  case read => cases width <;> decide
  case write => cases width <;> decide
  all_goals decide

/-! ### Arguments -/

theorem Monitor.parseNumber_eq_ok {token : Text} {value : UInt32}
    (h : Numeral.parse token = .ok value) : parseNumber token = .ok value := by
  rw [parseNumber, h]
  rfl

theorem Monitor.parseAddress_eq_ok {token : Text} {address : UInt32}
    (h : Numeral.parse token = .ok address) (haddress : address ≤ highestAddress) :
    parseAddress token = .ok address := by
  rw [parseAddress, parseNumber_eq_ok h]
  show (if highestAddress < address then _ else _) = _
  rw [if_neg (UInt32.not_lt.mpr haddress)]
  rfl

/-- The values that a memory cell of some width can hold. -/
def Width.Holds (width : Width) (value : UInt32) : Prop := width = .byte → value ≤ 0xff

theorem Width.parseValue_eq_ok {width : Width} {token : Text} {value : UInt32}
    (h : Numeral.parse token = .ok value) (hholds : width.Holds value) :
    width.parseValue token = .ok value := by
  rw [parseValue, Monitor.parseNumber_eq_ok h]
  show (if width = .byte ∧ 0xff < value then _ else _) = _
  rw [if_neg fun hlarge => UInt32.not_lt.mpr (hholds hlarge.1) hlarge.2]
  rfl

/-- Something is said, and flushed; then the memory is accessed, and that is the end. -/
def Console.leave {α : Type} (text : Text) (requests : Program Memory Unit) :
    Program Console α := do
  say text
  flush
  memory requests
  halt

namespace Monitor

/-! ### Commands -/

theorem liftM_ok {α : Type} (a : α) :
    (liftM (Except.ok a : Except Failure α) : ExceptT Failure (Program Console) α) = pure a := rfl

theorem run_liftM_error_bind {α β : Type} (failure : Failure)
    (f : α → ExceptT Failure (Program Console) β) :
    ((liftM (Except.error failure : Except Failure α) : ExceptT Failure (Program Console) α) >>=
      f).run = pure (.error failure) := rfl

theorem run_readCommand (width : Width) {token : Text} {address : UInt32}
    (haddress : parseAddress token = .ok address) (others : List Text) :
    (readCommand width (token :: others)).run =
      (showValue width address >>= fun _ => pure (.ok ())) := by
  simp only [readCommand, haddress, liftM_ok, pure_bind, Program.run_liftM]

/-- The accesses of a write that goes through, and what is shown about them. -/
def showing (width : Width) (address value : UInt32) : Program Console (Except Failure Unit) := do
  showValue width address
  changeValue width address value
  showValue width address
  return .ok ()

theorem run_writeCommand {width : Width} {token valueToken : Text} {address value : UInt32}
    (haddress : parseAddress token = .ok address) (hvalue : width.parseValue valueToken = .ok value)
    (others : List Text) :
    (writeCommand width (token :: valueToken :: others)).run = showing width address value := by
  simp only [showing, writeCommand, haddress, hvalue, liftM_ok, pure_bind, ExceptT.run_bind,
    Program.run_liftM, bind_assoc]

/-- Both arguments that a write asks for are there and can be read. -/
def writable (width : Width) : List Text → Bool
  | token :: valueToken :: _ => (parseAddress token).isOk && (width.parseValue valueToken).isOk
  | _ => false

/-- Without good arguments a write looks at most, and fails. -/
theorem writeCommand_refused {width : Width} {arguments : List Text}
    (h : writable width arguments = false) :
    ∃ failure, ∃ looks : Program Console Unit, Looking looks ∧
      (writeCommand width arguments).run = looks >>= fun _ => pure (.error failure) := by
  match arguments with
  | [] => exact ⟨_, pure (), trivial, rfl⟩
  | [token] => exact ⟨_, pure (), trivial, rfl⟩
  | token :: valueToken :: others =>
    cases haddress : parseAddress token with
    | error failure =>
      refine ⟨failure, pure (), trivial, ?_⟩
      simp only [writeCommand, haddress, run_liftM_error_bind, pure_bind]
    | ok address =>
      cases hvalue : width.parseValue valueToken with
      | error failure =>
        -- The old value is out by the time the new one is refused.
        refine ⟨failure, showValue width address, Looking.showValue width address, ?_⟩
        simp only [writeCommand, haddress, hvalue, liftM_ok, pure_bind, ExceptT.run_bind,
          Program.run_liftM, bind_assoc]
        rfl
      | ok value =>
        rw [writable, haddress, hvalue] at h
        cases h

/-- A line that may write has an address and a value that fits. -/
theorem writeCommand_granted {width : Width} {arguments : List Text}
    (h : writable width arguments = true) :
    ∃ address value, (writeCommand width arguments).run = showing width address value := by
  match arguments with
  | [] => cases h
  | [token] => cases h
  | token :: valueToken :: others =>
    cases haddress : parseAddress token with
    | error failure =>
      rw [writable, haddress] at h
      cases h
    | ok address =>
      cases hvalue : width.parseValue valueToken with
      | error failure =>
        rw [writable, hvalue, Bool.and_comm] at h
        cases h
      | ok value => exact ⟨address, value, run_writeCommand haddress hvalue others⟩

/-- What a reset asks of the memory between its announcement and the halt. -/
def resetRequests (monitor : Monitor) (toRom : Bool) : Program Memory Unit :=
  match monitor.config.controlBase with
  | none => pure ()
  | some base => requestReset base toRom

/-- A reset is a way out: it says so, and goes. -/
theorem reset_eq {α : Type} (monitor : Monitor) (toRom : Bool) :
    (monitor.reset toRom : Program Console α) =
      Console.leave (resetText toRom) (monitor.resetRequests toRom) := by
  rw [reset, resetRequests]
  cases monitor.config.controlBase <;> rfl

/-- Nothing comes after a reset. -/
theorem reset_bind {α β : Type} (monitor : Monitor) (toRom : Bool) (f : α → Program Console β) :
    monitor.reset toRom >>= f = monitor.reset toRom := by
  have hhalt : (Console.halt >>= f : Program Console β) = Console.halt := by
    show Program.call (I := Console) .halt _ = .call .halt _
    congr 1
    funext never
    exact never.elim
  simp only [reset_eq, Console.leave, bind_assoc, hhalt]

/-! ### Lines -/

/-- Says how a command failed, if it did. -/
def tell (outcome : Except Failure Unit) : Program Console (Except Failure Unit) := do
  if let .error failure := outcome then Console.say failure.report
  return outcome

theorem tell_error (failure : Failure) :
    tell (.error failure) = Console.say failure.report >>= fun _ => pure (.error failure) := rfl

theorem looking_tell (outcome : Except Failure Unit) : Looking (tell outcome) := by
  cases outcome with
  | ok done => trivial
  | error failure => exact .bind (Looking.say _) fun _ => .pure _

variable (monitor : Monitor) {line : Text}

/-- Nothing happens on a blank line. -/
theorem execute_blank (h : Console.tokens line = []) : monitor.execute line = pure (.ok ()) := by
  rw [execute, h]

/-- A line runs the command of its name, and then its failure is told. -/
theorem execute_command {command : Command} {arguments : List Text}
    (h : Console.tokens line = command.name :: arguments) :
    monitor.execute line = (monitor.run command arguments).run >>= tell := by
  rw [execute, h]
  simp only [Command.ofName?_name]
  rfl

theorem execute_of_reset {arguments : List Text}
    (h : Console.tokens line = ("reset" : Text) :: arguments) :
    monitor.execute line = monitor.reset (!arguments.isEmpty) := by
  have hcommand : Console.tokens line = Command.reset.name :: arguments := h
  have hrun : (monitor.run .reset arguments).run = monitor.reset (!arguments.isEmpty) := rfl
  rw [monitor.execute_command hcommand, hrun]
  exact monitor.reset_bind _ _

/-- A line without a command is refused by its name. -/
theorem execute_unknown {name : Text} {arguments : List Text}
    (h : Console.tokens line = name :: arguments) (hname : Command.ofName? name = none) :
    monitor.execute line = tell (.error (.unknownCommand name)) := by
  rw [execute, h]
  simp only [hname]
  rfl

/-- A line is blank, or names a command, or something that is none. -/
theorem execute_cases (line : Text) :
    monitor.execute line = pure (.ok ()) ∨
      (∃ command arguments, Console.tokens line = command.name :: arguments ∧
        monitor.execute line = (monitor.run command arguments).run >>= tell) ∨
      ∃ failure, monitor.execute line = tell (.error failure) := by
  cases htokens : Console.tokens line with
  | nil => exact .inl (monitor.execute_blank htokens)
  | cons name arguments =>
    right
    cases hname : Command.ofName? name with
    | none => exact .inr ⟨_, monitor.execute_unknown htokens hname⟩
    | some command =>
      obtain rfl := Command.eq_name_of_ofName? hname
      exact .inl ⟨command, arguments, rfl, monitor.execute_command htokens⟩

/-- A line that asks for no reset and no bulk mode looks at most, unless it is a write that goes
through. -/
theorem execute_looking_or_showing
    (hreset : (Console.tokens line).head? ≠ some ("reset" : Text))
    (hbulk : (Console.tokens line).head? ≠ some ("bmo" : Text)) :
    Looking (monitor.execute line) ∨
      ∃ width address value, (Console.tokens line).head? = some (Command.write width).name ∧
        monitor.execute line = showing width address value := by
  rcases monitor.execute_cases line with hblank | ⟨command, arguments, htokens, hrun⟩ |
    ⟨failure, hunknown⟩
  · exact .inl (hblank ▸ trivial)
  · rw [htokens, List.head?_cons] at hreset hbulk ⊢
    rw [hrun]
    cases command with
    | help => exact .inl (.bind (.lift (Looking.say _)) fun _ => looking_tell _)
    | version => exact .inl (.bind (.lift (Looking.showVersion monitor)) fun _ => looking_tell _)
    | read width => exact .inl (.bind (Looking.readCommand width arguments) fun _ => looking_tell _)
    -- Only a write that is granted does more than look, and then it is known what it does.
    | write width =>
      cases hwritable : writable width arguments with
      | false =>
        obtain ⟨failure, looks, hlooks, hrefused⟩ := writeCommand_refused hwritable
        rw [run, hrefused]
        exact .inl (.bind (.bind hlooks fun _ => .pure _) fun _ => looking_tell _)
      | true =>
        obtain ⟨address, value, hshowing⟩ := writeCommand_granted hwritable
        refine .inr ⟨width, address, value, rfl, ?_⟩
        rw [run, hshowing, showing]
        simp only [bind_assoc, pure_bind]
        rfl
    | reset => exact absurd rfl hreset
    | bulk => exact absurd rfl hbulk
  · exact .inl (hunknown ▸ looking_tell _)

/-- A line with good arguments that asks for a value. -/
theorem execute_read {width : Width} {token : Text} {address : UInt32}
    (htoken : Numeral.parse token = .ok address) (haddress : address ≤ highestAddress) :
    monitor.execute (Console.spaced (Command.read width).name [token]) =
      (showValue width address >>= fun _ => pure (.ok ())) := by
  have hwords : ∀ argument ∈ [token], Console.IsWord argument := by
    simpa using Numeral.isWord_of_parse htoken
  have hcount : [token].length < Console.maxTokens := by simp [Console.maxTokens]
  have htokens := Console.tokens_spaced (Command.read width).isWord_name hwords hcount
  have hrun := run_readCommand width (parseAddress_eq_ok htoken haddress) []
  rw [monitor.execute_command htokens, run, hrun, bind_assoc]
  rfl

/-- A line with good arguments that changes a value. -/
theorem execute_write {width : Width} {token valueToken : Text} {address value : UInt32}
    (htoken : Numeral.parse token = .ok address) (haddress : address ≤ highestAddress)
    (hvalue : Numeral.parse valueToken = .ok value) (hholds : width.Holds value) :
    monitor.execute (Console.spaced (Command.write width).name [token, valueToken]) =
      showing width address value := by
  have hwords : ∀ argument ∈ [token, valueToken], Console.IsWord argument := by
    simpa using And.intro (Numeral.isWord_of_parse htoken) (Numeral.isWord_of_parse hvalue)
  have hcount : [token, valueToken].length < Console.maxTokens := by simp [Console.maxTokens]
  have htokens := Console.tokens_spaced (Command.write width).isWord_name hwords hcount
  have hrun := run_writeCommand (parseAddress_eq_ok htoken haddress)
    (Width.parseValue_eq_ok hvalue hholds) []
  rw [monitor.execute_command htokens, run, hrun, showing]
  simp only [bind_assoc, pure_bind]
  rfl

end Monitor

end DebugMonitor
