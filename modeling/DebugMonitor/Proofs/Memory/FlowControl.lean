import DebugMonitor.Proofs.Memory.BusCycles
import DebugMonitor.Proofs.Memory.UartBlock

/-!
# Flow control

The driver of the UART moves a byte only after a report that is good enough. Here it runs on a bus
that may answer anything, so nothing is known of the queues: a report may be wrong, and the next one
may be about something else. What holds all the same is what the driver makes of the reports.

The paths of `Uart.await` are known (`returns_await_iff`, `asks_await`), and so are those of the
three calls on top of it: `Uart.Carried` lists the byte accesses of a call that returns, `Uart.Due`
says of every access in every call what reports stand before it. `Uart.handler_flows` puts a bus
below.
-/

namespace DebugMonitor.Uart

open Memory (reading writing)

/-! ### Waiting for a report -/

variable {register base : UInt32} {enough : UInt8} {patience : Nat} {log : List (Exchange Memory)}

/-- Reports are read until one is good enough, and no further. -/
theorem returns_await_iff :
    (await register enough patience).Returns log () ↔
      ∃ (low : List UInt8) (report : UInt8), low.length < patience ∧
        (∀ level ∈ low, level < enough) ∧ enough ≤ report ∧
        log = low.map (reading register) ++ [reading register report] := by
  constructor
  · intro h
    -- By induction on the patience: the first report is good enough, or it is one of the low ones.
    induction patience generalizing log with
    | zero => cases h
    | succ patience ih =>
      obtain ⟨report, rest, rfl, hrest⟩ := Program.returns_ask_bind_iff.mp h
      by_cases hlow : report < enough
      · rw [if_pos hlow] at hrest
        obtain ⟨low, last, hlength, hlevels, henough, rfl⟩ := ih hrest
        refine ⟨report :: low, last, by simpa using hlength, ?_, henough, rfl⟩
        exact List.forall_mem_cons.mpr ⟨hlow, hlevels⟩
      · rw [if_neg hlow] at hrest
        obtain ⟨rfl, -⟩ := Program.returns_pure_iff.mp hrest
        exact ⟨[], report, Nat.succ_pos _, List.forall_mem_nil _, UInt8.not_lt.mp hlow, rfl⟩
  · rintro ⟨low, report, hlength, hlevels, henough, rfl⟩
    -- And back, by induction on the low reports.
    induction low generalizing patience with
    | nil =>
      obtain ⟨patience, rfl⟩ := Nat.exists_eq_succ_of_ne_zero (Nat.pos_iff_ne_zero.mp hlength)
      refine Program.returns_ask_bind_iff.mpr ⟨report, [], rfl, ?_⟩
      rw [if_neg (UInt8.not_lt.mpr henough)]
      exact .done ()
    | cons level low ih =>
      obtain ⟨patience, rfl⟩ := Nat.exists_eq_succ_of_ne_zero (Nat.ne_zero_of_lt hlength)
      obtain ⟨hlow, hlevels⟩ := List.forall_mem_cons.mp hlevels
      refine Program.returns_ask_bind_iff.mpr ⟨level, _, rfl, ?_⟩
      rw [if_pos hlow]
      exact ih (Nat.lt_of_succ_lt_succ hlength) hlevels

/-- While it waits the driver reads the report, and all reports so far were too low. -/
theorem asks_await {asked : Memory.Request} (h : (await register enough patience).Asks log asked) :
    asked = .read register ∧
      ∃ low : List UInt8, (∀ level ∈ low, level < enough) ∧ log = low.map (reading register) := by
  induction patience generalizing log with
  | zero => cases h
  | succ patience ih =>
    rcases Program.asks_ask_bind_iff.mp h with ⟨rfl, rfl⟩ | ⟨report, rest, rfl, hrest⟩
    · exact ⟨rfl, [], List.forall_mem_nil _, rfl⟩
    · by_cases hlow : report < enough
      · rw [if_pos hlow] at hrest
        obtain ⟨hasked, low, hlevels, rfl⟩ := ih hrest
        exact ⟨hasked, report :: low, List.forall_mem_cons.mpr ⟨hlow, hlevels⟩, rfl⟩
      · rw [if_neg hlow] at hrest
        exact absurd hrest Program.not_asks_pure

/-- Below one there is only zero. -/
theorem eq_replicate_of_empty {low : List UInt8} (h : ∀ level ∈ low, level < 1) :
    low.map (reading register) = List.replicate low.length (reading register 0) := by
  have hzero : low = List.replicate low.length 0 :=
    List.eq_replicate_of_mem fun level hlevel => by
      have := UInt8.lt_iff_toNat_lt.mp (h level hlevel)
      rw [← UInt8.toNat_inj]
      exact Nat.lt_one_iff.mp this
  rw [hzero, List.map_replicate, List.length_replicate]

theorem ne_zero_of_filled {level : UInt8} (h : 1 ≤ level) : level ≠ 0 := by
  rintro rfl
  exact absurd h (by decide)

/-! ### Calls -/

/-- The byte accesses of a call that has returned. -/
inductive Carried (base : UInt32) : Exchange Serial → List (Exchange Memory) → Prop where
  | received (waits : Nat) (level byte : UInt8) (filled : level ≠ 0) :
      Carried base ⟨.receive, byte⟩
        (List.replicate waits (reading (base + 5) 0) ++
          [reading (base + 5) level, reading base byte])
  | sent (byte : UInt8) (low : List UInt8) (room : UInt8) (scarce : ∀ level ∈ low, level < 8)
      (enough : 8 ≤ room) :
      Carried base ⟨.send byte, ()⟩
        (low.map (reading (base + 6)) ++ [reading (base + 6) room, writing (base + 1) byte])
  | flushed (low : List UInt8) (room : UInt8) (scarce : ∀ level ∈ low, level < 15)
      (enough : 15 ≤ room) :
      Carried base ⟨.flush, ()⟩ (low.map (reading (base + 6)) ++ [reading (base + 6) room])

/-- What a call asks for, returns it or not, and the byte accesses that have come before. -/
inductive Due (base : UInt32) :
    Serial.Request → List (Exchange Memory) → Memory.Request → Prop where
  | level (waits : Nat) :
      Due base .receive (List.replicate waits (reading (base + 5) 0)) (.read (base + 5))
  | receive (waits : Nat) (level : UInt8) (filled : level ≠ 0) :
      Due base .receive
        (List.replicate waits (reading (base + 5) 0) ++ [reading (base + 5) level]) (.read base)
  | roomToSend (byte : UInt8) (low : List UInt8) (scarce : ∀ level ∈ low, level < 8) :
      Due base (.send byte) (low.map (reading (base + 6))) (.read (base + 6))
  | send (byte : UInt8) (low : List UInt8) (room : UInt8) (scarce : ∀ level ∈ low, level < 8)
      (enough : 8 ≤ room) :
      Due base (.send byte) (low.map (reading (base + 6)) ++ [reading (base + 6) room])
        (.write (base + 1) byte)
  | roomToFlush (low : List UInt8) (scarce : ∀ level ∈ low, level < 15) :
      Due base .flush (low.map (reading (base + 6))) (.read (base + 6))

/-- A call that returns was carried out by the rule. -/
theorem carried_of_returns {call : Exchange Serial}
    (h : (channel base patience call.1).Returns log call.2) : Carried base call log := by
  obtain ⟨request, answer⟩ := call
  cases request with
  | receive =>
    obtain ⟨_, _, ⟨⟩, rfl, hawait, hread⟩ := Program.returns_bind_iff.mp h
    obtain ⟨low, level, -, hlevels, hlevel, rfl⟩ := returns_await_iff.mp hawait
    obtain rfl := Program.returns_ask_iff.mp hread
    -- A level below one is zero, so the low reports are all alike.
    rw [eq_replicate_of_empty hlevels, List.append_assoc, show base + receiveBuffer = base from
      UInt32.add_zero base]
    exact .received low.length level answer (ne_zero_of_filled hlevel)
  | send byte =>
    obtain ⟨_, _, ⟨⟩, rfl, hawait, hwrite⟩ := Program.returns_bind_iff.mp h
    obtain ⟨low, room, -, hlow, hroom, rfl⟩ := returns_await_iff.mp hawait
    obtain rfl := Program.returns_ask_iff.mp hwrite
    rw [List.append_assoc]
    exact .sent byte low room hlow hroom
  | flush =>
    obtain ⟨low, room, -, hlow, hroom, rfl⟩ := returns_await_iff.mp h
    exact .flushed low room hlow hroom

/-- Every access of a call was due when it was made. -/
theorem due_of_asks {request : Serial.Request} {asked : Memory.Request}
    (h : (channel base patience request).Asks log asked) : Due base request log asked := by
  cases request with
  | receive =>
    -- The driver is still waiting, or its wait is over.
    rcases Program.asks_bind_iff.mp h with hawait | ⟨_, _, ⟨⟩, rfl, hawait, hread⟩
    · obtain ⟨rfl, low, hlevels, rfl⟩ := asks_await hawait
      rw [eq_replicate_of_empty hlevels]
      exact .level low.length
    · obtain ⟨low, level, -, hlevels, hlevel, rfl⟩ := returns_await_iff.mp hawait
      obtain ⟨rfl, rfl⟩ := Program.asks_ask_iff.mp hread
      rw [eq_replicate_of_empty hlevels, List.append_nil, show base + receiveBuffer = base from
        UInt32.add_zero base]
      exact .receive low.length level (ne_zero_of_filled hlevel)
  | send byte =>
    rcases Program.asks_bind_iff.mp h with hawait | ⟨_, _, ⟨⟩, rfl, hawait, hwrite⟩
    · obtain ⟨rfl, low, hlow, rfl⟩ := asks_await hawait
      exact .roomToSend byte low hlow
    · obtain ⟨low, room, -, hlow, hroom, rfl⟩ := returns_await_iff.mp hawait
      obtain ⟨rfl, rfl⟩ := Program.asks_ask_iff.mp hwrite
      rw [List.append_nil]
      exact .send byte low room hlow hroom
  | flush =>
    obtain ⟨rfl, low, hlow, rfl⟩ := asks_await h
    exact .roomToFlush low hlow

/-! ### Calls on a bus -/

/-- **Flow control**, on every bus. No call, whether it comes to an end or not, asks for a byte or
hands one over before the report of the moment lets it; a call that returns has moved its one byte
and read reports up to the first good one, each in the group of bus calls that belongs to it. A page
register is left as it was found. -/
theorem handler_flows {σ : Type} (layout : Layout) (bus : Handler Bus (EStateM Stop σ))
    (base : UInt32) (patience : Nat) (request : Serial.Request) (s : σ) :
    let call := channel base patience request
    let memory : Handler Memory (EStateM Stop σ) := fun access =>
      (layout.access access).handle bus
    (∀ before asked after, call.trace memory s = before ++ asked :: after →
      Due base request ((call.transcript memory s).take before.length) asked) ∧
    ∀ answer t, handler layout bus base patience request s = .ok answer t →
      Carried base ⟨request, answer⟩ (call.transcript memory s) ∧
      (∃ groups : List (List (Exchange Bus)),
        List.Forall₂ layout.Group (call.transcript memory s) groups ∧
        (layout.lower call).transcript bus s = groups.flatten) ∧
      ∀ page, Bus.HoldsPage bus page → page t = page s := by
  intro call memory
  refine ⟨fun before asked after htrace => due_of_asks (Program.asks_of_trace htrace), ?_⟩
  intro answer t hrun
  have hmemory := (congrFun (Program.handle_handle layout.access bus call) s).symm.trans hrun
  obtain ⟨groups, hgroups, htranscript, -⟩ := Layout.lower_groups hrun
  refine ⟨?_, ⟨groups, hgroups, htranscript⟩, ?_⟩
  · exact carried_of_returns (Program.returns_transcript hmemory)
  · exact fun page hpage => Bus.KeepsPage.lower hpage call hrun

/-- A byte that waits in the queue of a chip behind a gate. -/
theorem handler_flows_chip :
    let layout : Layout := { Layout.banked with gate := some ⟨0x15000, 0x16000, 0x87, 0x01⟩ }
    let chip : Sim.Chip := { page := 3, uart := some { base := 0x15100, received := [0x68] } }
    let call := channel 0x15100 1 .receive
    let memory : Handler Memory (EStateM Stop Sim.Chip) := fun access =>
      (layout.access access).handle Sim.Chip.bus
    call.trace memory chip = [.read 0x15105] ++ .read 0x15100 :: [] ∧
    Due 0x15100 .receive ((call.transcript memory chip).take 1) (.read 0x15100) ∧
    ∃ t, handler layout Sim.Chip.bus 0x15100 1 .receive chip = .ok 0x68 t ∧
      Carried 0x15100 ⟨.receive, (0x68 : UInt8)⟩ (call.transcript memory chip) ∧
      t.page = 3 := by
  intro layout chip call memory
  have hflows := handler_flows layout Sim.Chip.bus 0x15100 1 .receive chip
  have htrace : call.trace memory chip = [.read 0x15105] ++ .read 0x15100 :: [] := by decide
  have hdue := hflows.1 [.read 0x15105] (.read 0x15100) [] htrace
  have hfits : layout.Fits chip := ⟨by decide, nofun⟩
  let queues : Sim.UartQueues := { base := 0x15100, received := [0x68] }
  have hshows : layout.Shows queues.base := ⟨by decide, nofun⟩
  have huart : chip.uart = some queues := rfl
  have hreceived : queues.received = [0x68] := rfl
  obtain ⟨switches, hreceive⟩ := Sim.Chip.handle_receive hfits hshows huart hreceived 0
  have hrun := (congrFun (Sim.Chip.handle_lower layout call) chip).trans hreceive
  obtain ⟨hcarried, -, hpage⟩ := hflows.2 0x68 _ hrun
  exact ⟨htrace, hdue, _, hrun, hcarried, hpage Sim.Chip.page Sim.Chip.holdsPage⟩

end DebugMonitor.Uart
