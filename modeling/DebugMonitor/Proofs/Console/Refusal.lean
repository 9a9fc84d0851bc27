import DebugMonitor.Proofs.Console.Execution

/-!
# Why a line is refused

The arguments of a command are checked one after the other: whether they are there, whether the
address is a numeral, and one in range, and then the same for the value. The first check that fails
is the one that is reported. All but the checks on the value are made before anything is accessed
(`Refused`); when the value is looked at, the old one has been shown (`RefusedValue`).

Every line has its verdict (`verdict`): it is blank, it is refused in one of these two ways, its
arguments are good, or it is a line of a command without arguments. All but the refused lines
succeed if they return at all (`refused_or_succeeds`).
-/

namespace DebugMonitor

/-- The number of arguments that a command cannot do without. -/
def Command.arity : Command → Nat
  | help | version | reset | bulk => 0
  | read _ => 1
  | write _ => 2

namespace Monitor

/-! ### Checks -/

/-- A token that is no address: it is no numeral, or else its number is out of range. -/
inductive NoAddress (token : Text) : Failure → Prop where
  | malformed {malformed : Numeral.Malformed} (text : Numeral.parse token = .error malformed) :
      NoAddress token (.malformed malformed)
  | tooLarge {address : UInt32} (text : Numeral.parse token = .ok address)
      (range : 0xffffff < address) : NoAddress token .addressTooLarge

/-- A token that is no value of some width: it is no numeral, or else its number does not fit. -/
inductive NoValue (width : Width) (token : Text) : Failure → Prop where
  | malformed {malformed : Numeral.Malformed} (text : Numeral.parse token = .error malformed) :
      NoValue width token (.malformed malformed)
  | tooLarge {value : UInt32} (text : Numeral.parse token = .ok value) (byte : width = .byte)
      (range : 0xff < value) : NoValue width token .valueTooLarge

/-- A line with these tokens is refused before anything is accessed. -/
inductive Refused (tokens : List Text) : Failure → Prop where
  | unknown {name : Text} {arguments : List Text} (tokens_eq : tokens = name :: arguments)
      (other : name ∉
        (["help", "version", "mrb", "mrw", "mwb", "mww", "reset", "bmo"] : List Text)) :
      Refused tokens (.unknownCommand name)
  | missing {command : Command} {arguments : List Text}
      (tokens_eq : tokens = command.name :: arguments) (few : arguments.length < command.arity) :
      Refused tokens (.tooFewArguments command)
  | address {command : Command} {token : Text} {others : List Text} {failure : Failure}
      (tokens_eq : tokens = command.name :: token :: others) (takes : 0 < command.arity)
      (enough : command.arity ≤ others.length + 1) (address : NoAddress token failure) :
      Refused tokens failure

/-- A line with these tokens is refused when the value at the address has been shown. -/
inductive RefusedValue (tokens : List Text) (width : Width) (address : UInt32) :
    Failure → Prop where
  | value {token valueToken : Text} {others : List Text} {failure : Failure}
      (tokens_eq : tokens = (Command.write width).name :: token :: valueToken :: others)
      (text : Numeral.parse token = .ok address) (range : address ≤ 0xffffff)
      (value : NoValue width valueToken failure) : RefusedValue tokens width address failure

/-- What the checks come to, for a line with these tokens. -/
inductive Verdict (tokens : List Text) : Prop where
  | blank (tokens_eq : tokens = [])
  | refused {failure : Failure} (refused : Refused tokens failure)
  | refusedValue {width : Width} {address : UInt32} {failure : Failure}
      (refused : RefusedValue tokens width address failure)
  | read {width : Width} {token : Text} {others : List Text} {address : UInt32}
      (tokens_eq : tokens = (Command.read width).name :: token :: others)
      (text : Numeral.parse token = .ok address) (range : address ≤ 0xffffff)
  | write {width : Width} {token valueToken : Text} {others : List Text} {address value : UInt32}
      (tokens_eq : tokens = (Command.write width).name :: token :: valueToken :: others)
      (text : Numeral.parse token = .ok address) (range : address ≤ 0xffffff)
      (valueText : Numeral.parse valueToken = .ok value) (holds : width.Holds value)
  | other {command : Command} {arguments : List Text}
      (tokens_eq : tokens = command.name :: arguments) (free : command.arity = 0)

/-! ### The checks that are made -/

theorem parseAddress_eq (token : Text) :
    parseAddress token = match Numeral.parse token with
      | .ok address => if 0xffffff < address then .error .addressTooLarge else .ok address
      | .error malformed => .error (.malformed malformed) := by
  rw [parseAddress, parseNumber]
  cases Numeral.parse token with
  | ok address =>
    by_cases hrange : highestAddress < address
    · exact (if_pos hrange).trans (if_pos hrange).symm
    · exact (if_neg hrange).trans (if_neg hrange).symm
  | error malformed => rfl

theorem parseValue_eq (width : Width) (token : Text) :
    width.parseValue token = match Numeral.parse token with
      | .ok value => if width = .byte ∧ 0xff < value then .error .valueTooLarge else .ok value
      | .error malformed => .error (.malformed malformed) := by
  rw [Width.parseValue, parseNumber]
  cases Numeral.parse token with
  | ok value =>
    by_cases hlarge : width = .byte ∧ 0xff < value
    · exact (if_pos hlarge).trans (if_pos hlarge).symm
    · exact (if_neg hlarge).trans (if_neg hlarge).symm
  | error malformed => rfl

/-- A token is no address for exactly these reasons. -/
theorem parseAddress_error_iff {token : Text} {failure : Failure} :
    parseAddress token = .error failure ↔ NoAddress token failure := by
  rw [parseAddress_eq]
  constructor
  · intro h
    split at h
    · next address htext =>
      split at h
      · next hrange =>
        cases h
        exact .tooLarge htext hrange
      · cases h
    · next malformed htext =>
      cases h
      exact .malformed htext
  · intro h
    cases h with
    | malformed htext => rw [htext]
    | tooLarge htext hrange =>
      rw [htext]
      exact if_pos hrange

/-- An address is a numeral of at most 24 bits. -/
theorem parseAddress_ok_iff {token : Text} {address : UInt32} :
    parseAddress token = .ok address ↔ Numeral.parse token = .ok address ∧ address ≤ 0xffffff := by
  constructor
  · intro h
    rw [parseAddress_eq] at h
    split at h
    · next found htext =>
      split at h
      · cases h
      · next hrange =>
        cases h
        exact ⟨htext, UInt32.not_lt.mp hrange⟩
    · cases h
  · rintro ⟨htext, hrange⟩
    exact parseAddress_eq_ok htext hrange

/-- A token is no value for exactly these reasons. -/
theorem parseValue_error_iff {width : Width} {token : Text} {failure : Failure} :
    width.parseValue token = .error failure ↔ NoValue width token failure := by
  rw [parseValue_eq]
  constructor
  · intro h
    split at h
    · next value htext =>
      split at h
      · next hrange =>
        cases h
        exact .tooLarge htext hrange.1 hrange.2
      · cases h
    · next malformed htext =>
      cases h
      exact .malformed htext
  · intro h
    cases h with
    | malformed htext => rw [htext]
    | tooLarge htext hbyte hrange =>
      rw [htext]
      exact if_pos ⟨hbyte, hrange⟩

/-- A value is a numeral that fits the width. -/
theorem parseValue_ok_iff {width : Width} {token : Text} {value : UInt32} :
    width.parseValue token = .ok value ↔ Numeral.parse token = .ok value ∧ width.Holds value := by
  constructor
  · intro h
    rw [parseValue_eq] at h
    split at h
    · next found htext =>
      split at h
      · cases h
      · next hrange =>
        cases h
        exact ⟨htext, fun hbyte => UInt32.not_lt.mp fun hlarge => hrange ⟨hbyte, hlarge⟩⟩
    · cases h
  · rintro ⟨htext, hholds⟩
    exact Width.parseValue_eq_ok htext hholds

/-! ### Verdicts -/

/-- The list has the name of every command. -/
theorem name_mem (command : Command) :
    command.name ∈
      (["help", "version", "mrb", "mrw", "mwb", "mww", "reset", "bmo"] : List Text) := by
  rcases command with _ | _ | width | width | _ | _
  case read => cases width <;> decide
  case write => cases width <;> decide
  all_goals decide

/-- There is no command beside these eight. -/
theorem ofName?_eq_none {name : Text}
    (h : name ∉ (["help", "version", "mrb", "mrw", "mwb", "mww", "reset", "bmo"] : List Text)) :
    Command.ofName? name = none := by
  cases hname : Command.ofName? name with
  | none => rfl
  | some command =>
    obtain rfl := Command.eq_name_of_ofName? hname
    exact absurd (name_mem command) h

/-- And no other names. -/
theorem exists_name {name : Text}
    (h : name ∈ (["help", "version", "mrb", "mrw", "mwb", "mww", "reset", "bmo"] : List Text)) :
    ∃ command : Command, name = command.name := by
  have hall : (["help", "version", "mrb", "mrw", "mwb", "mww", "reset", "bmo"] : List Text) =
      Command.all.map Command.name := by decide
  rw [hall, List.mem_map] at h
  obtain ⟨command, -, rfl⟩ := h
  exact ⟨command, rfl⟩

/-- What a read has to say about its arguments. -/
theorem verdict_read (width : Width) (arguments : List Text) :
    Verdict ((Command.read width).name :: arguments) := by
  cases arguments with
  | nil => exact .refused (.missing rfl Nat.one_pos)
  | cons token others =>
    cases haddress : parseAddress token with
    | error failure =>
      exact .refused (.address rfl Nat.one_pos (Nat.le_add_left _ _)
        (parseAddress_error_iff.mp haddress))
    | ok address =>
      obtain ⟨htext, hrange⟩ := parseAddress_ok_iff.mp haddress
      exact .read rfl htext hrange

/-- What a write has to say about its arguments, the address before the value. -/
theorem verdict_write (width : Width) (arguments : List Text) :
    Verdict ((Command.write width).name :: arguments) := by
  match arguments with
  | [] => exact .refused (.missing rfl Nat.two_pos)
  | [token] => exact .refused (.missing rfl Nat.one_lt_two)
  | token :: valueToken :: others =>
    cases haddress : parseAddress token with
    | error failure =>
      exact .refused (.address rfl Nat.two_pos (Nat.le_add_left _ _)
        (parseAddress_error_iff.mp haddress))
    | ok address =>
      obtain ⟨htext, hrange⟩ := parseAddress_ok_iff.mp haddress
      cases hvalue : width.parseValue valueToken with
      | error failure =>
        exact .refusedValue (.value rfl htext hrange (parseValue_error_iff.mp hvalue))
      | ok value =>
        obtain ⟨hvalueText, hholds⟩ := parseValue_ok_iff.mp hvalue
        exact .write rfl htext hrange hvalueText hholds

theorem verdict (tokens : List Text) : Verdict tokens := by
  cases tokens with
  | nil => exact .blank rfl
  | cons name arguments =>
    by_cases hname :
        name ∈ (["help", "version", "mrb", "mrw", "mwb", "mww", "reset", "bmo"] : List Text)
    · obtain ⟨command, rfl⟩ := exists_name hname
      cases command with
      | read width => exact verdict_read width arguments
      | write width => exact verdict_write width arguments
      | _ => exact .other rfl rfl
    · exact .refused (.unknown rfl hname)

/-! ### What becomes of a line -/

variable {monitor : Monitor} {line : Text}

/-- A refused line tells its failure and does nothing else. -/
theorem execute_refused {failure : Failure} (h : Refused (Console.tokens line) failure) :
    monitor.execute line = tell (.error failure) := by
  cases h with
  | unknown htokens hother => exact monitor.execute_unknown htokens (ofName?_eq_none hother)
  -- Commands look at their arguments before anything else.
  | @missing command arguments htokens hfew =>
    rw [monitor.execute_command htokens]
    cases command with
    | read width =>
      obtain rfl := List.length_eq_zero_iff.mp (Nat.lt_one_iff.mp hfew)
      rfl
    | write width =>
      cases arguments with
      | nil => rfl
      | cons token others =>
        obtain rfl := List.length_eq_zero_iff.mp (Nat.lt_one_iff.mp (Nat.lt_of_succ_lt_succ hfew))
        rfl
    | _ => exact absurd hfew (Nat.not_lt_zero _)
  | @address command token others failure htokens htakes henough haddress =>
    -- With enough arguments the address is the first to be parsed.
    have herror := parseAddress_error_iff.mpr haddress
    rw [monitor.execute_command htokens]
    cases command with
    | read width =>
      simp only [run, readCommand, herror, run_liftM_error_bind, pure_bind]
    | write width =>
      cases others with
      | nil => exact absurd henough (Nat.not_succ_le_self 1)
      | cons valueToken others =>
        simp only [run, writeCommand, herror, run_liftM_error_bind, pure_bind]
    | _ => exact absurd htakes (Nat.lt_irrefl 0)

/-- The old value is out by the time the new one is refused. -/
theorem execute_refusedValue {width : Width} {address : UInt32} {failure : Failure}
    (h : RefusedValue (Console.tokens line) width address failure) :
    monitor.execute line = showValue width address >>= fun _ => tell (.error failure) := by
  cases h with
  | value htokens htext hrange hvalue =>
    have haddress := parseAddress_eq_ok htext hrange
    have herror := parseValue_error_iff.mpr hvalue
    rw [monitor.execute_command htokens]
    simp only [run, writeCommand, haddress, herror, liftM_ok, pure_bind, ExceptT.run_bind,
      Program.run_liftM, bind_assoc]
    rfl

theorem execute_of_read {width : Width} {token : Text} {others : List Text} {address : UInt32}
    (htokens : Console.tokens line = (Command.read width).name :: token :: others)
    (htext : Numeral.parse token = .ok address) (hrange : address ≤ 0xffffff) :
    monitor.execute line = showValue width address >>= fun _ => pure (.ok ()) := by
  have hrun := run_readCommand width (parseAddress_eq_ok htext hrange) others
  rw [monitor.execute_command htokens, run, hrun, bind_assoc]
  rfl

theorem execute_of_write {width : Width} {token valueToken : Text} {others : List Text}
    {address value : UInt32}
    (htokens : Console.tokens line = (Command.write width).name :: token :: valueToken :: others)
    (htext : Numeral.parse token = .ok address) (hrange : address ≤ 0xffffff)
    (hvalue : Numeral.parse valueToken = .ok value) (hholds : width.Holds value) :
    monitor.execute line = showing width address value := by
  have hrun := run_writeCommand (parseAddress_eq_ok htext hrange)
    (Width.parseValue_eq_ok hvalue hholds) others
  rw [monitor.execute_command htokens, run, hrun, showing]
  simp only [bind_assoc, pure_bind]
  rfl

/-- The other commands have nothing to refuse. -/
theorem execute_of_free {command : Command} {arguments : List Text}
    (htokens : Console.tokens line = command.name :: arguments) (hfree : command.arity = 0) :
    ∃ p : Program Console Unit, monitor.execute line = p >>= fun _ => pure (.ok ()) := by
  have hsucceeds (p : Program Console Unit) (hrun : (monitor.run command arguments).run =
      (liftM p : ExceptT Failure (Program Console) Unit).run) :
      ∃ p : Program Console Unit, monitor.execute line = p >>= fun _ => pure (.ok ()) := by
    refine ⟨p, ?_⟩
    rw [monitor.execute_command htokens, hrun, Program.run_liftM, bind_assoc]
    rfl
  cases command with
  | read width => cases hfree
  | write width => cases hfree
  | help => exact hsucceeds (Console.say helpText) rfl
  | version => exact hsucceeds monitor.showVersion rfl
  | reset =>
    refine ⟨monitor.reset (!arguments.isEmpty), ?_⟩
    rw [monitor.execute_of_reset htokens, reset_bind]
  | bulk => exact hsucceeds monitor.serveBulk rfl

/-- **A line that is not refused succeeds,** if it returns. -/
theorem refused_or_succeeds (monitor : Monitor) (line : Text) :
    (∃ failure, Refused (Console.tokens line) failure) ∨
      (∃ width address failure, RefusedValue (Console.tokens line) width address failure) ∨
      ∃ p : Program Console Unit, monitor.execute line = p >>= fun _ => pure (.ok ()) := by
  cases verdict (Console.tokens line) with
  | blank htokens => exact .inr (.inr ⟨pure (), monitor.execute_blank htokens⟩)
  | refused h => exact .inl ⟨_, h⟩
  | refusedValue h => exact .inr (.inl ⟨_, _, _, h⟩)
  | read htokens htext hrange => exact .inr (.inr ⟨_, execute_of_read htokens htext hrange⟩)
  | @write width _ _ _ address value htokens htext hrange hvalue hholds =>
    refine .inr (.inr ⟨do
      showValue width address
      changeValue width address value
      showValue width address, ?_⟩)
    rw [execute_of_write htokens htext hrange hvalue hholds, showing]
    simp only [bind_assoc]
  | other htokens hfree => exact .inr (.inr (execute_of_free htokens hfree))

end Monitor

end DebugMonitor
