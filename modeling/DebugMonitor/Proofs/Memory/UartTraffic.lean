import DebugMonitor.Proofs.Memory.Reading
import DebugMonitor.Proofs.Memory.UartBlock

/-!
# The UART loses nothing

A UART has two ends. Its registers are on the bus, and what they send and receive is taken and
pushed at the other end. Between the two it keeps a queue for each direction. Whatever is done to
the chip, in any order: all that went into a queue, with what was in it before, is all that came out
of it, with what is in it still (`uart_conserves`). So no byte is lost, none is there twice, and
they stay in order.

The registers are found by their place, not by what is or is not reachable there. A block in a
locked band answers, and one that sticks out of the address space has the registers that are inside.
-/

namespace DebugMonitor

open Sim

/-- The addresses of a register block, counted without an end of the address space. -/
def Uart.Spans (base address : UInt32) : Prop :=
  base.toNat ≤ address.toNat ∧ address.toNat ≤ base.toNat + 6

namespace Sim

/-! ### What is done to a chip -/

/-- Calls on the bus, and what is done at the far end of the UART or on the board. -/
inductive Operation where
  | bus (request : Bus.Request)
  | push (bytes : Bytes)
  | take
  | poke (address : UInt32) (value : UInt8)
  | lock (band : PowerGate)

abbrev Operation.Answer : Operation → Type
  | bus request => Except Stop request.Answer
  | take => Bytes
  | push _ | poke _ _ | lock _ => Unit

def Operation.perform (chip : Chip) : (operation : Operation) → operation.Answer × Chip
  | bus request =>
    match Chip.bus request chip with
    | .ok answer after => (.ok answer, after)
    | .error stop after => (.error stop, after)
  | push bytes => ((), chip.pushUart bytes)
  | take => chip.takeUart
  | poke address value => ((), chip.poke address value)
  | lock band => ((), chip.lock band)

/-- An operation with its answer, and the chip before and after it. -/
structure Event where
  before : Chip
  operation : Operation
  answer : operation.Answer
  after : Chip

def Operation.event (chip : Chip) (operation : Operation) : Event :=
  ⟨chip, operation, (operation.perform chip).1, (operation.perform chip).2⟩

/-- What happens to a chip, operation by operation. -/
def Chip.events (chip : Chip) : List Operation → List Event
  | [] => []
  | operation :: rest => operation.event chip :: (operation.event chip).after.events rest

/-- The chip after all of them. -/
def Chip.afterAll (chip : Chip) : List Operation → Chip
  | [] => chip
  | operation :: rest => (operation.event chip).after.afterAll rest

namespace Event

/-! ### What goes through the queues -/

/-- The address of a load, and its answer. -/
def load? : Event → Option (UInt32 × UInt8)
  | ⟨before, .bus (.load offset), .ok byte, _⟩ => some (before.physical offset, byte)
  | _ => none

/-- The address of a store, and the value. -/
def store? : Event → Option (UInt32 × UInt8)
  | ⟨before, .bus (.store offset value), _, _⟩ => some (before.physical offset, value)
  | _ => none

def pushed : Event → Bytes
  | ⟨_, .push bytes, _, _⟩ => bytes
  | _ => []

def taken : Event → Bytes
  | ⟨_, .take, bytes, _⟩ => bytes
  | _ => []

/-- What the receive buffer answers, unless nothing was in the queue. -/
def received (base : UInt32) (event : Event) : Bytes :=
  match event.load? with
  | some (address, byte) => if address = base ∧ 0 < event.before.uartPending then [byte] else []
  | none => []

/-- What is stored to the register that sends. -/
def sent (base : UInt32) (event : Event) : Bytes :=
  match event.store? with
  | some (address, value) => if address.toNat = base.toNat + 1 then [value] else []
  | none => []

/-- An event at neither end of the UART: no register of the block is accessed, and nothing is pushed
or taken. -/
def Elsewhere (base : UInt32) (event : Event) : Prop :=
  match event.operation with
  | .bus (.load offset) | .bus (.store offset _) => ¬ Uart.Spans base (event.before.physical offset)
  | .push _ | .take => False
  | _ => True

/-- The queues before and after an event: what was in them and what came in is what went out and
what is in them now. -/
structure Moves (event : Event) (now next : UartQueues) : Prop where
  after_eq : event.after.uart = some next
  base_eq : next.base = now.base
  received_eq : now.received ++ event.pushed = event.received now.base ++ next.received
  sent_eq : now.transmitted ++ event.sent now.base = event.taken ++ next.transmitted

/-- An event answers by the queues that it finds, and leaves alone what it has no part in. -/
structure Respects (event : Event) (now : UartQueues) : Prop where
  before_eq : event.before.uart = some now
  answered : ∀ offset, event.operation = .bus (.load offset) →
    ∃ byte, event.load? = some (event.before.physical offset, byte)
  drained : ∀ byte, event.load? = some (now.base, byte) →
    (byte = 0 ∧ event.after = event.before ↔ now.received = [])
  level : ∀ address byte, event.load? = some (address, byte) →
    address.toNat = now.base.toNat + 5 →
      byte.toNat = min 255 now.received.length ∧ (byte ≠ 0 ↔ now.received ≠ [])
  data_eq : ∀ address value, event.store? = some (address, value) →
    Uart.Spans now.base address → event.after.data = event.before.data
  uart_eq : event.Elsewhere now.base → event.after.uart = event.before.uart

end Event

/-! ### Registers of the block -/

namespace UartQueues

variable {queues : UartQueues} {address : UInt32}

/-- The block spans its registers and nothing else. -/
theorem spans_iff :
    Uart.Spans queues.base address ↔ ∃ register, queues.register? address = some register := by
  have hsix : Uart.lastRegister.toNat = 6 := rfl
  constructor
  · rintro ⟨hfirst, hlast⟩
    refine ⟨address - queues.base, register?_eq_some_iff.mpr ?_⟩
    have hsub := UInt32.toNat_sub_of_le _ _ (UInt32.le_iff_toNat_le.mpr hfirst)
    rw [UInt32.le_iff_toNat_le]
    omega
  · rintro ⟨register, hregister⟩
    obtain ⟨hplace, hlast⟩ := register?_eq_some_iff.mp hregister
    rw [UInt32.le_iff_toNat_le] at hlast
    rw [Uart.Spans]
    omega

theorem register?_of_not_spans (h : ¬ Uart.Spans queues.base address) :
    queues.register? address = none := by
  cases hregister : queues.register? address with
  | none => rfl
  | some register => exact absurd (spans_iff.mpr ⟨register, hregister⟩) h

theorem register?_base (queues : UartQueues) :
    queues.register? queues.base = some Uart.receiveBuffer :=
  register?_eq_some_iff.mpr ⟨rfl, by decide⟩

/-- The receive buffer of an empty queue can be read as often as one likes. -/
theorem load_receiveBuffer_eq_self_iff (queues : UartQueues) :
    queues.load Uart.receiveBuffer = (0, queues) ↔ queues.received = [] := by
  constructor
  · intro h
    have htail : queues.received.tail = queues.received := congrArg (·.2.received) h
    cases hreceived : queues.received with
    | nil => rfl
    | cons byte rest => simp [hreceived] at htail
  · intro hempty
    rw [load, if_pos rfl, hempty]
    show (0, { queues with received := [] }) = (0, queues)
    rw [← hempty]

/-- The register that sends is the only one by which a store gets into a queue. -/
theorem store_of_ne {register : UInt32} (queues : UartQueues)
    (h : register ≠ Uart.transmitHolding) (value : UInt8) :
    ∃ lineControl, queues.store register value = { queues with lineControl } := by
  rw [store, if_neg h]
  split
  · exact ⟨value, rfl⟩
  · exact ⟨queues.lineControl, rfl⟩

end UartQueues

namespace Event

variable {chip : Chip} {now : UartQueues} {operation : Operation}

/-! ### The queues, event by event -/

/-- Away from the UART there is data, locked or not. -/
theorem uart_of_elsewhere (huart : chip.uart = some now)
    (h : (operation.event chip).Elsewhere now.base) :
    (operation.event chip).after.uart = chip.uart := by
  -- Only loads and stores reach the UART over the bus, and these are not at its block.
  cases operation with
  | bus request =>
    cases request with
    | load offset =>
      have hload := Chip.load_of_none huart (UartQueues.register?_of_not_spans h)
      exact congrArg (·.2.uart) hload
    | store offset value =>
      have hstore := Chip.store_of_none huart (UartQueues.register?_of_not_spans h) value
      refine (congrArg Chip.uart hstore).trans ?_
      split <;> rfl
    | setRegister index value =>
      obtain ⟨registers, hframe⟩ := chip.writeRegister_frame index value
      exact (congrArg Chip.uart hframe).trans rfl
    | page => rfl
    | setPage page => rfl
    | code offset => rfl
    | register index => rfl
    | halt => rfl
  | push bytes => exact h.elim
  | take => exact h.elim
  | poke address value => rfl
  | lock band => rfl

/-- Where nothing comes in and nothing goes out, the queues stay as they are. -/
theorem Moves.of_idle {event : Event} (hafter : event.after.uart = some now)
    (hin : event.pushed = [] ∧ event.sent now.base = [])
    (hout : event.received now.base = [] ∧ event.taken = []) : event.Moves now now where
  after_eq := hafter
  base_eq := rfl
  received_eq := by rw [hin.1, hout.1, List.append_nil, List.nil_append]
  sent_eq := by rw [hin.2, hout.2, List.append_nil, List.nil_append]

/-- A load takes its byte out of the receive queue, or nothing at all. -/
theorem moves_load (huart : chip.uart = some now) (offset : UInt16) :
    ∃ next, (Operation.event chip (.bus (.load offset))).Moves now next := by
  by_cases hbase : chip.physical offset = now.base
  · -- The byte that the receive buffer answers is the one that leaves the queue.
    have hload := Chip.load_of_some huart now.register?_base
    rw [← hbase] at hload
    refine ⟨{ now with received := now.received.tail }, congrArg (·.2.uart) hload, rfl, ?_, ?_⟩
    · have hpending : chip.uartPending = now.received.length := by
        rw [Chip.uartPending, huart]
      show now.received ++ [] =
        (if chip.physical offset = now.base ∧ 0 < chip.uartPending then
          [(chip.load (chip.physical offset)).1] else []) ++ now.received.tail
      rw [hload, hpending]
      cases hreceived : now.received with
      | nil => simp
      | cons byte rest => simp [hbase, UartQueues.load, hreceived]
    · exact List.append_nil _
  · -- Every other register is only looked at, and a cell as well.
    have hafter : (chip.load (chip.physical offset)).2 = chip := by
      apply Chip.load_of_not_base
      intro queues hqueues
      obtain rfl : now = queues := Option.some.inj (huart.symm.trans hqueues)
      exact Ne.symm hbase
    refine ⟨now, .of_idle ?_ ⟨rfl, rfl⟩ ⟨?_, rfl⟩⟩
    · exact (congrArg Chip.uart hafter).trans huart
    · exact if_neg fun h => hbase h.1

/-- A store puts its byte into the transmit queue, or nothing at all. -/
theorem moves_store (huart : chip.uart = some now) (offset : UInt16) (value : UInt8) :
    ∃ next, (Operation.event chip (.bus (.store offset value))).Moves now next := by
  have hsent : (Operation.event chip (.bus (.store offset value))).sent now.base =
      if (chip.physical offset).toNat = now.base.toNat + 1 then [value] else [] := rfl
  have hafter : (Operation.event chip (.bus (.store offset value))).after =
      chip.store (chip.physical offset) value := rfl
  by_cases hplace : (chip.physical offset).toNat = now.base.toNat + 1
  · have hregister : now.register? (chip.physical offset) = some Uart.transmitHolding :=
      UartQueues.register?_eq_some_iff.mpr ⟨hplace, by decide⟩
    refine ⟨{ now with sent := value :: now.sent }, ?_, rfl, List.append_nil _, ?_⟩
    · rw [hafter, Chip.store_of_some huart hregister]
      rfl
    · rw [hsent, if_pos hplace]
      exact List.reverse_cons.symm
  · rw [if_neg hplace] at hsent
    cases hregister : now.register? (chip.physical offset) with
    | none =>
      refine ⟨now, .of_idle ?_ ⟨rfl, hsent⟩ ⟨rfl, rfl⟩⟩
      rw [hafter, Chip.store_of_none huart hregister]
      split <;> exact huart
    | some register =>
      obtain ⟨hoffset, -⟩ := UartQueues.register?_eq_some_iff.mp hregister
      have hother : register ≠ Uart.transmitHolding := by
        rintro rfl
        exact hplace hoffset
      -- What is not sent may still set the line up, and that is in no queue.
      obtain ⟨lineControl, hstore⟩ := now.store_of_ne hother value
      refine ⟨{ now with lineControl }, ?_, rfl, List.append_nil _, ?_⟩
      · rw [hafter, Chip.store_of_some huart hregister, hstore]
      · rw [hsent]
        exact List.append_nil _

/-- Every operation moves the queues on. -/
theorem exists_moves (huart : chip.uart = some now) (operation : Operation) :
    ∃ next, (operation.event chip).Moves now next := by
  cases operation with
  | bus request =>
    cases request with
    | load offset => exact moves_load huart offset
    | store offset value => exact moves_store huart offset value
    | _ =>
      refine ⟨now, .of_idle ((uart_of_elsewhere huart ?_).trans huart) ⟨rfl, rfl⟩ ⟨rfl, rfl⟩⟩
      trivial
  -- What is pushed comes in at the end of the queue.
  | push bytes =>
    refine ⟨{ now with received := now.received ++ bytes }, ?_, rfl, rfl, List.append_nil _⟩
    show (chip.pushUart bytes).uart = _
    rw [Chip.pushUart, huart]
    rfl
  -- And what was sent is taken as a whole.
  | take =>
    have htake : chip.takeUart =
        (now.transmitted, { chip with uart := some { now with sent := [] } }) := by
      rw [Chip.takeUart, huart]
    refine ⟨{ now with sent := [] }, congrArg (·.2.uart) htake, rfl, List.append_nil _, ?_⟩
    exact congrArg (·.1 ++ []) htake.symm
  | poke address value => exact ⟨now, .of_idle huart ⟨rfl, rfl⟩ ⟨rfl, rfl⟩⟩
  | lock band => exact ⟨now, .of_idle huart ⟨rfl, rfl⟩ ⟨rfl, rfl⟩⟩

/-! ### Single answers -/

/-- Only a load has the address of a load. -/
theorem load_of_load? {address : UInt32} {byte : UInt8}
    (h : (operation.event chip).load? = some (address, byte)) :
    chip.load address = (byte, (operation.event chip).after) := by
  cases operation with
  | bus request =>
    cases request with
    | load offset =>
      obtain ⟨rfl, rfl⟩ := Prod.mk.inj (Option.some.inj h)
      rfl
    | _ => cases h
  | _ => cases h

theorem after_of_store? {address : UInt32} {value : UInt8}
    (h : (operation.event chip).store? = some (address, value)) :
    (operation.event chip).after = chip.store address value := by
  cases operation with
  | bus request =>
    cases request with
    | store offset value =>
      obtain ⟨rfl, rfl⟩ := Prod.mk.inj (Option.some.inj h)
      rfl
    | _ => cases h
  | _ => cases h

/-- Every operation is answered by the queues it finds, and changes no data under the block. -/
theorem respects_event (huart : chip.uart = some now) (operation : Operation) :
    (operation.event chip).Respects now where
  before_eq := huart
  answered offset hoperation := by
    obtain rfl : operation = .bus (.load offset) := hoperation
    exact ⟨_, rfl⟩
  drained byte hbyte := by
    have hload := (load_of_load? hbyte).symm.trans (Chip.load_of_some huart now.register?_base)
    obtain ⟨hanswer, hafter⟩ := Prod.mk.inj hload
    -- An empty queue is the only one that a read of the receive buffer leaves as it was.
    rw [← now.load_receiveBuffer_eq_self_iff]
    constructor
    · rintro ⟨hzero, hsame⟩
      have huarts := (congrArg Chip.uart (hafter.symm.trans hsame)).trans huart
      exact Prod.ext (hanswer.symm.trans hzero) (Option.some.inj huarts)
    · intro hempty
      rw [hempty] at hanswer hafter
      refine ⟨hanswer, hafter.trans ?_⟩
      rw [← huart]
      rfl
  level address byte hbyte hplace := by
    have hregister : now.register? address = some Uart.receiveLevel :=
      UartQueues.register?_eq_some_iff.mpr ⟨hplace, by decide⟩
    have hload := (load_of_load? hbyte).symm.trans (Chip.load_of_some huart hregister)
    have hlevel : byte.toNat = min 255 now.received.length := by
      rw [(Prod.mk.inj hload).1]
      exact Chip.toNat_level now.received
    refine ⟨hlevel, not_congr ?_⟩
    rw [← UInt8.toNat_inj, hlevel, ← List.length_eq_zero_iff]
    show min 255 now.received.length = 0 ↔ _
    omega
  data_eq address value hvalue hspans := by
    obtain ⟨register, hregister⟩ := UartQueues.spans_iff.mp hspans
    rw [after_of_store? hvalue, Chip.store_of_some huart hregister]
    rfl
  uart_eq := uart_of_elsewhere huart

end Event

/-! ### Whole runs -/

/-- What is left at the end of one stretch is what the next one starts with. -/
theorem append_balance {α : Type} {held kept left came came' went went' : List α}
    (h : held ++ came = went ++ kept) (h' : kept ++ came' = went' ++ left) :
    held ++ (came ++ came') = went ++ went' ++ left := by
  rw [← List.append_assoc, h, List.append_assoc, h', List.append_assoc]

namespace Chip

variable {chip : Chip} {queues : UartQueues}

/-- **The UART loses nothing, duplicates nothing and reorders nothing,** whatever is done to the
chip on both sides of it. -/
theorem uart_conserves (huart : chip.uart = some queues) (operations : List Operation) :
    (∃ last, (chip.afterAll operations).uart = some last ∧ last.base = queues.base ∧
      queues.received ++ (chip.events operations).flatMap Event.pushed =
        (chip.events operations).flatMap (Event.received queues.base) ++ last.received ∧
      queues.transmitted ++ (chip.events operations).flatMap (Event.sent queues.base) =
        (chip.events operations).flatMap Event.taken ++ last.transmitted) ∧
      ∀ event ∈ chip.events operations, ∃ now, now.base = queues.base ∧ event.Respects now := by
  -- Each operation moves bytes from one side of the balance to the other; the sums telescope.
  induction operations generalizing chip queues with
  | nil =>
    refine ⟨⟨queues, huart, rfl, List.append_nil _, List.append_nil _⟩, ?_⟩
    intro event hevent
    cases hevent
  | cons operation rest ih =>
    obtain ⟨next, hmoves⟩ := Event.exists_moves huart operation
    obtain ⟨⟨last, hlast, hbase, hreceived, hsent⟩, hrest⟩ := ih hmoves.after_eq
    rw [hmoves.base_eq] at hbase hreceived hsent hrest
    refine ⟨⟨last, hlast, hbase, ?_, ?_⟩, ?_⟩
    · exact append_balance hmoves.received_eq hreceived
    · exact append_balance hmoves.sent_eq hsent
    · intro event hevent
      rcases List.mem_cons.mp hevent with rfl | hevent
      · exact ⟨queues, rfl, Event.respects_event huart operation⟩
      · exact hrest event hevent

/-- A block that a locked band hides and that reaches beyond the last page. A zero in the queue is
not mistaken for an empty queue. -/
theorem uart_conserves_locked :
    let chip : Chip :=
      { page := 0xff
        uart := some { base := 0xfffffe, received := [7], sent := [9] }
        locked := some ⟨0xfffff0, 0xffffffff, 0x87, 0x01⟩ }
    let operations : List Operation :=
      [.push [0, 8], .bus (.load 0xfffe), .bus (.load 0xfffe), .bus (.store 0xffff 0x41), .take,
        .bus (.store 0xffff 0x42), .bus (.setPage 0), .bus (.store 0 0x43), .bus (.load 0xfffe)]
    chip.reachable 0xfffffe = false ∧
      (chip.events operations).flatMap (Event.received 0xfffffe) = [7, 0] ∧
      (chip.events operations).flatMap Event.taken = [9, 0x41] ∧
      (∃ last, (chip.afterAll operations).uart = some last ∧ last.received = [8] ∧
        last.transmitted = [0x42]) ∧
      ∀ event ∈ chip.events operations, ∃ now, now.base = 0xfffffe ∧ event.Respects now := by
  intro chip operations
  have hreceived : (chip.events operations).flatMap (Event.received 0xfffffe) = [7, 0] := by
    decide +kernel
  have htaken : (chip.events operations).flatMap Event.taken = [9, 0x41] := by decide +kernel
  have hpushed : (chip.events operations).flatMap Event.pushed = [0, 8] := by decide +kernel
  have hsent : (chip.events operations).flatMap (Event.sent 0xfffffe) = [0x41, 0x42] := by
    decide +kernel
  have huart : chip.uart = some { base := 0xfffffe, received := [7], sent := [9] } := rfl
  obtain ⟨⟨last, hlast, -, hin, hout⟩, hevents⟩ := uart_conserves huart operations
  rw [hpushed, hreceived] at hin
  rw [hsent, htaken] at hout
  replace hin : [7, 0] ++ [8] = [7, 0] ++ last.received := hin
  replace hout : [9, 0x41] ++ [0x42] = [9, 0x41] ++ last.transmitted := hout
  refine ⟨by decide +kernel, hreceived, htaken, ⟨last, hlast, ?_, ?_⟩, hevents⟩
  · exact (List.append_cancel_left hin).symm
  · exact (List.append_cancel_left hout).symm

end Chip

end Sim

end DebugMonitor
