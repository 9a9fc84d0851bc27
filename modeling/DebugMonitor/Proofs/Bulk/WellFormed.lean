import DebugMonitor.Proofs.Bulk.Decoding
import DebugMonitor.Proofs.Station.Input

/-!
# Well-formed bulk sessions

The states of a bulk session are typed so that nothing wrong can be said in them: behind the address
of a block there can be no word, and no request can be an exit. Here are the states without these
types. A *raw* session keeps the opcode as it came, counts in bytes, and takes whatever is left for
a block; and it refuses to go on where a shift leaves the word, a count leaves its byte, or a
difference would be negative.

None of this happens, whatever the host sends (`session_wellFormed`). The raw session is never
refused and goes through the states of the typed one. What a state says is true of the request in
progress: its first byte is the opcode, the fields have their bytes, and what remains of a block is
what has not come yet. So a word is never served as a block, or a block as a word.
-/

namespace DebugMonitor

/-! ### Results that do not depend on the answers -/

namespace Program

variable {I : Interface} {α β σ : Type} {P : α → Prop} {Q : β → Prop}

/-- Whatever it is answered, the program returns, and what it returns has the property. -/
def Ensures (P : α → Prop) : Program I α → Prop
  | done a => P a
  | stalled => False
  | call _ next => ∀ answer, (next answer).Ensures P

namespace Ensures

theorem bind {p : Program I α} {f : α → Program I β} (hp : p.Ensures P)
    (hf : ∀ a, P a → (f a).Ensures Q) : (p >>= f).Ensures Q := by
  induction p with
  | done a => exact hf a hp
  | stalled => exact hp.elim
  | call request next ih => exact fun answer => ih answer (hp answer)

theorem mono {more : α → Prop} {p : Program I α} (hp : p.Ensures P) (h : ∀ a, P a → more a) :
    p.Ensures more := by
  induction p with
  | done a => exact h a hp
  | stalled => exact hp.elim
  | call request next ih => exact fun answer => ih answer (hp answer)

/-- After a program, only what it can return counts. -/
theorem bind_congr {p : Program I α} {f g : α → Program I β} (hp : p.Ensures P)
    (hfg : ∀ a, P a → f a = g a) : (p >>= f) = (p >>= g) := by
  induction p with
  | done a => exact hfg a hp
  | stalled => rfl
  | call request next ih =>
    show call request (fun answer => next answer >>= f) =
      call request fun answer => next answer >>= g
    congr 1
    funext answer
    exact ih answer (hp answer)

/-- A program that never gives up ensures that there is a result. -/
theorem of_within {allowed : I.Request → Prop} {p : Program I α} (hp : p.Within allowed) :
    p.Ensures fun _ => True := by
  induction p with
  | done a => trivial
  | stalled => exact hp
  | call request next ih => exact fun answer => ih answer (hp.2 answer)

/-- The answers of a run are some answers. -/
theorem of_handle {p : Program I α} (hp : p.Ensures P) {h : Handler I (EStateM Stop σ)} {s t : σ}
    {a : α} (hrun : p.handle h s = .ok a t) : P a := by
  induction p generalizing s with
  | done result =>
    cases hrun
    exact hp
  | stalled => exact hp.elim
  | call request next ih =>
    rw [handle_call] at hrun
    cases hrequest : h request s with
    | ok answer middle =>
      rw [hrequest] at hrun
      exact ih answer (hp answer) hrun
    | error stop middle =>
      rw [hrequest] at hrun
      cases hrun

end Ensures

end Program

open Program (Ensures)

namespace Bulk

/-! ### Raw sessions -/

namespace Raw

/-- A field whose bytes are counted in a byte. -/
structure Field where
  value : UInt32 := 0
  count : UInt8 := 0

/-- The states of the machine. Nothing keeps a count or an opcode from making no sense. -/
inductive State where
  | idle
  | address (opcode : Opcode) (field : Field)
  | value (address : UInt32) (field : Field)
  | length (opcode : Opcode) (address : UInt32) (field : Field)
  | data (address remaining : UInt32)

/-- The field with one more byte, or its value once the fourth is there. The byte must not be
shifted out of the word, and the count must not wrap round. -/
def Field.push? (field : Field) (byte : UInt8) : Option (Field ⊕ UInt32) :=
  if 8 * field.count.toNat < 32 ∧ field.count.toNat + 1 < 256 then
    let value := field.value ||| byte.toUInt32 <<< (8 * field.count).toUInt32
    let count := field.count + 1
    some (if count = 4 then .inr value else .inl ⟨value, count⟩)
  else none

/-- What an address is for. All that is not one of the words is taken for a block. -/
def feedAddress (opcode : Opcode) (address : UInt32) : Program Console State :=
  match opcode with
  | .transfer (.word .read) => do
    Session.sendWord address
    return .idle
  | .transfer (.word .write) => return .value address {}
  | _ => return .length opcode address {}

/-- What a length is for. All that is not a block to read is taken for one to write. -/
def feedLength (byWords : Bool) (opcode : Opcode) (address length : UInt32) :
    Program Console State :=
  if opcode = .transfer (.block .read) then do
    Session.sendBlock byWords address length.toNat
    return .idle
  else return if length = 0 then .idle else .data address length

/-- The state after a byte, or nothing where it was refused. -/
def next? (byWords : Bool) (byte : UInt8) : State → Program Console (Option State)
  | .idle =>
    match Opcode.ofByte? byte with
    | none | some .exit => return some .idle
    | some opcode => return some (.address opcode {})
  | .address opcode field =>
    match field.push? byte with
    | none => return none
    | some (.inl field) => return some (.address opcode field)
    | some (.inr address) => some <$> feedAddress opcode address
  | .value address field =>
    match field.push? byte with
    | none => return none
    | some (.inl field) => return some (.value address field)
    | some (.inr value) => do
      Console.memory (Memory.writeWord address value)
      return some .idle
  | .length opcode address field =>
    match field.push? byte with
    | none => return none
    | some (.inl field) => return some (.length opcode address field)
    | some (.inr length) => some <$> feedLength byWords opcode address length
  | .data address remaining => do
    Console.memory (Memory.write address byte)
    if remaining = 0 then return none
    else return some (if remaining = 1 then .idle else .data (address + 1) (remaining - 1))

/-- Feeds a stream, unless a step is refused. -/
def feedAll? (byWords : Bool) (state : State) : Bytes → Program Console (Option State)
  | [] => return some state
  | byte :: rest => do
    match ← next? byWords byte state with
    | none => return none
    | some state => feedAll? byWords state rest

/-! ### Typed states as raw ones -/

def Field.ofTyped (field : Bulk.Field) : Field := ⟨field.value, field.count.toUInt8⟩

/-- A typed state with its counters as bytes. -/
def ofTyped : Bulk.State → State
  | .idle => .idle
  | .address transfer field => .address (.transfer transfer) (.ofTyped field)
  | .value address field => .value address (.ofTyped field)
  | .length direction address field =>
    .length (.transfer (.block direction)) address (.ofTyped field)
  | .data address remaining => .data address remaining

/-- A field that has room for a byte takes it as the typed one does. -/
theorem Field.push?_ofTyped {field : Bulk.Field} (h : field.count < 4) (b : UInt8) :
    (ofTyped field).push? b = some ((field.push b).map ofTyped id) := by
  obtain ⟨value, count⟩ := field
  match count, h with
  | 0, _ => rfl
  | 1, _ => rfl
  | 2, _ => rfl
  | 3, _ => rfl

/-- Both machines go on alike behind an address. -/
theorem feedAddress_ofTyped (transfer : Transfer) (address : UInt32) :
    feedAddress (.transfer transfer) address =
      ofTyped <$> Session.feedAddress transfer address := by
  match transfer with
  | .word .read =>
    simp only [feedAddress, Session.feedAddress, map_bind, map_pure]
    rfl
  | .word .write => rfl
  | .block direction => rfl

theorem feedLength_ofTyped (byWords : Bool) (direction : Direction) (address length : UInt32) :
    feedLength byWords (.transfer (.block direction)) address length =
      ofTyped <$> Session.feedLength byWords direction address length := by
  cases direction with
  | read =>
    simp only [feedLength, Session.feedLength, map_bind, map_pure]
    rfl
  | write =>
    have hopcode : ¬ Opcode.transfer (.block .write) = .transfer (.block .read) := by decide
    rw [feedLength, if_neg hopcode, Session.feedLength, map_pure]
    split
    · rfl
    · rfl

/-- In its range, a state takes a byte as the typed one does. -/
theorem next?_ofTyped (byWords : Bool) (b : UInt8) {state : Bulk.State} (h : state.InRange) :
    next? byWords b (ofTyped state) =
      (fun after => some (ofTyped after)) <$> Session.next byWords b state := by
  -- The two machines have the same states, and take the byte in the same way in each of them.
  cases state with
  | idle =>
    show next? byWords b .idle = _
    rw [next?, Session.next]
    cases Opcode.ofByte? b with
    | none => rfl
    | some opcode =>
      cases opcode with
      | exit => rfl
      | transfer transfer => rfl
  | address transfer field =>
    show next? byWords b (.address (.transfer transfer) (.ofTyped field)) = _
    rw [next?, Session.next, Field.push?_ofTyped h]
    cases field.push b with
    | inl field => rfl
    | inr address =>
      show some <$> feedAddress (.transfer transfer) address = _
      rw [feedAddress_ofTyped, Functor.map_map]
  | value address field =>
    show next? byWords b (.value address (.ofTyped field)) = _
    rw [next?, Session.next, Field.push?_ofTyped h]
    cases field.push b with
    | inl field => rfl
    | inr value =>
      simp only [map_bind]
      rfl
  | length direction address field =>
    show next? byWords b (.length (.transfer (.block direction)) address (.ofTyped field)) = _
    rw [next?, Session.next, Field.push?_ofTyped h]
    cases field.push b with
    | inl field => rfl
    | inr length =>
      show some <$> feedLength byWords (.transfer (.block direction)) address length = _
      rw [feedLength_ofTyped, Functor.map_map]
  | data address remaining =>
    -- The typed machine subtracts without a check. It never has to, since some bytes are still to
    -- come.
    have hsome : remaining ≠ 0 := by
      rintro rfl
      exact UInt32.lt_irrefl 0 h
    show next? byWords b (.data address remaining) = _
    rw [next?, Session.next, if_neg hsome, map_bind]
    by_cases hlast : remaining = 1
    · rw [if_pos hlast, if_pos hlast]
      rfl
    · rw [if_neg hlast, if_neg hlast]
      rfl

/-! ### What a state says -/

/-- The number that bytes stand for, of which the first one counts ones. -/
def littleEndian (bytes : Bytes) : Nat := Nat.ofDigits 256 (bytes.map UInt8.toNat)

/-- The bytes are all that a field has got so far, and there are more to come. -/
structure Field.Holds (field : Field) (got : Bytes) : Prop where
  count_eq : field.count.toNat = got.length
  count_le : field.count.toNat ≤ 3
  value_eq : field.value.toNat = littleEndian got
  value_lt : field.value.toNat < 256 ^ field.count.toNat

/-- The bytes of a field that is complete. -/
structure Complete (word : UInt32) (bytes : Bytes) : Prop where
  length_eq : bytes.length = 4
  toNat_eq : word.toNat = littleEndian bytes

/-- The states that can be reached, and the bytes of the request in progress. -/
inductive WellFormed : State → Bytes → Prop where
  | idle : WellFormed .idle []
  | address (transfer : Transfer) {field : Field} {got : Bytes} (holds : field.Holds got) :
      WellFormed (.address (.transfer transfer) field) (transfer.opcode :: got)
  | value {address : UInt32} {field : Field} {front got : Bytes} (complete : Complete address front)
      (holds : field.Holds got) :
      WellFormed (.value address field) ('W'.toUInt8 :: (front ++ got))
  | length (direction : Direction) {address : UInt32} {field : Field} {front got : Bytes}
      (complete : Complete address front) (holds : field.Holds got) :
      WellFormed (.length (.transfer (.block direction)) address field)
        ((Transfer.block direction).opcode :: (front ++ got))
  | data {start address remaining length : UInt32} {front size data : Bytes}
      (complete : Complete start front) (sized : Complete length size)
      (remaining_pos : 1 ≤ remaining.toNat)
      (remaining_eq : data.length + remaining.toNat = length.toNat)
      (address_eq : address.toNat = (start.toNat + data.length) % 2 ^ 32) :
      WellFormed (.data address remaining) ('w'.toUInt8 :: (front ++ (size ++ data)))

theorem complete_toBytes (word : UInt32) : Complete word (Word.toBytes word) := by
  constructor
  · rfl
  · have hvalue := Word.toNat_ofBytes (Word.length_toBytes word).le
    rwa [Word.ofBytes_toBytes] at hvalue

/-- A field that was fed fewer than four bytes holds them. -/
theorem Field.holds_of {got : Bytes} (h : got.length < 4) : (ofTyped (.of got)).Holds got := by
  have hcount : got.length.toUInt8.toNat = got.length := by
    rw [show got.length.toUInt8.toNat = got.length % 256 from UInt8.toNat_ofNat']
    omega
  have hvalue : (Word.ofBytes got).toNat = littleEndian got := Word.toNat_ofBytes h.le
  constructor
  · exact hcount
  · show got.length.toUInt8.toNat ≤ 3
    omega
  · exact hvalue
  · show (Word.ofBytes got).toNat < 256 ^ got.length.toUInt8.toNat
    rw [hvalue, hcount]
    exact Word.ofDigits_lt got

end Raw

open Raw (WellFormed ofTyped)

/-- A state that awaits the rest of a request is well-formed behind what has come of it. -/
theorem Awaits.wellFormed {state : State} {start : Bytes} (h : Awaits state start) :
    WellFormed (ofTyped state) start := by
  cases h with
  | idle => exact .idle
  | address transfer hgot => exact .address transfer (Raw.Field.holds_of hgot)
  | value address hgot => exact .value (Raw.complete_toBytes address) (Raw.Field.holds_of hgot)
  | length direction address hgot =>
    exact .length direction (Raw.complete_toBytes address) (Raw.Field.holds_of hgot)
  | @data address length data hdata =>
    have hleft := toNat_sub_count hdata
    have hcount : data.length.toUInt32.toNat = data.length :=
      UInt32.toNat_ofNat_of_lt' (hdata.trans length.toNat_lt)
    refine .data (Raw.complete_toBytes address) (Raw.complete_toBytes length) ?_ ?_ ?_
    · omega
    · omega
    · rw [UInt32.toNat_add, hcount]

/-! ### What a session does, whatever it is answered -/

/-- A byte has one effect on the state. -/
theorem exists_ensures_next (byWords : Bool) (b : UInt8) (state : State) :
    ∃ found, (Session.next byWords b state).Ensures (· = found) := by
  -- Requests are served for whatever is answered, and the state behind them was chosen before.
  have hserved : ∀ {p : Program Console Unit} (after : State), Quiet p →
      (p >>= fun _ => pure after).Ensures (· = after) :=
    fun _ hp => (Ensures.of_within hp).bind fun _ _ => rfl
  cases state with
  | idle =>
    rw [Session.next]
    split
    · exact ⟨_, rfl⟩
    · exact ⟨_, rfl⟩
  | address transfer field =>
    rw [Session.next]
    cases field.push b with
    | inl field => exact ⟨_, rfl⟩
    | inr address =>
      cases transfer with
      | word direction =>
        cases direction with
        | read => exact ⟨_, hserved .idle (Quiet.sendWord address)⟩
        | write => exact ⟨_, rfl⟩
      | block direction => exact ⟨_, rfl⟩
  | value address field =>
    rw [Session.next]
    cases field.push b with
    | inl field => exact ⟨_, rfl⟩
    | inr value => exact ⟨_, hserved .idle (Quiet.writeWord address value)⟩
  | length direction address field =>
    rw [Session.next]
    cases field.push b with
    | inl field => exact ⟨_, rfl⟩
    | inr length =>
      cases direction with
      | read =>
        have hblock : Quiet (Session.sendBlock byWords address length.toNat) :=
          .bind (Quiet.sendWords _ _) fun _ => Quiet.sendBytes _ _
        exact ⟨_, hserved .idle hblock⟩
      | write => exact ⟨_, rfl⟩
  | data address remaining => exact ⟨_, hserved _ (Quiet.write address b)⟩

/-- A byte completes the item in progress, or makes its beginning longer. -/
theorem Awaits.ensures_next (byWords : Bool) {state : State} {start : Bytes}
    (h : Awaits state start) (b : UInt8) :
    (Session.next byWords b state).Ensures fun after =>
      (after = .idle ∧ ∃ item : Item, item.encode = start ++ [b]) ∨
        Awaits after (start ++ [b]) := by
  obtain ⟨found, hfound⟩ := exists_ensures_next byWords b state
  -- The answers make no difference, so one run tells what the state is.
  obtain ⟨after, middle, hrun, -⟩ := (Quiet.next byWords b state).returns Layout.banked
    ({ chip := {} } : Sim.Station)
  obtain rfl : after = found := hfound.of_handle hrun
  cases h.step byWords b with
  | finished item effect hencode hflow hsends heffect =>
    obtain rfl := Sim.Station.eq_of_sends hsends hrun
    exact hfound.mono fun last hlast => .inl ⟨hlast, item, hencode⟩
  | unfinished grown effect hgrown hflow hsends heffect =>
    obtain rfl := Sim.Station.eq_of_sends hsends.silent hrun
    exact hfound.mono fun last hlast => .inr (hlast ▸ hgrown)

/-- Where a stream that goes on from a beginning is cut, the session is waiting for the rest. -/
theorem Awaits.ensures_feedAll (byWords : Bool) {state : State} {start : Bytes}
    (h : Awaits state start) (stream : Bytes) :
    (Session.feedAll ⟨state, byWords⟩ stream).Ensures fun result =>
      ∃ cut : Cut Item.encode, cut.stream = start ++ stream ∧
        Awaits result.2.state cut.rest := by
  -- By induction on the stream: what has come of the item in progress grows, or the item is
  -- complete.
  induction stream generalizing state start with
  | nil =>
    refine ⟨⟨[], start, h.unfinished⟩, ?_, h⟩
    simp [Cut.stream]
  | cons b rest ih =>
    have hfeed : (Session.feed ⟨state, byWords⟩ b).Ensures fun entry =>
        entry.2.byWords = byWords ∧
          ((entry.2.state = .idle ∧ ∃ item : Item, item.encode = start ++ [b]) ∨
            Awaits entry.2.state (start ++ [b])) :=
      (h.ensures_next byWords b).bind fun after hafter => ⟨rfl, hafter⟩
    refine hfeed.bind ?_
    rintro ⟨flow, ⟨after, words⟩⟩ ⟨rfl, hafter⟩
    rcases hafter with ⟨rfl, item, hitem⟩ | hgrown
    · -- The item comes first, and what follows it is cut on its own.
      refine (ih .idle).bind ?_
      rintro result ⟨cut, hcut, hawaits⟩
      refine ⟨⟨item :: cut.items, cut.rest, cut.unfinished⟩, ?_, hawaits⟩
      have hstream : cut.items.flatMap Item.encode ++ cut.rest = rest := hcut
      rw [Cut.stream, List.flatMap_cons, List.append_assoc, hstream, hitem, List.append_assoc]
      rfl
    · refine (ih hgrown).bind ?_
      rintro result ⟨cut, hcut, hawaits⟩
      refine ⟨cut, ?_, hawaits⟩
      rw [hcut, List.append_assoc]
      rfl

/-- The raw session is never refused. -/
theorem Awaits.feedAll?_eq (byWords : Bool) {state : State} {start : Bytes}
    (h : Awaits state start) (stream : Bytes) :
    Raw.feedAll? byWords (ofTyped state) stream =
      (fun result => some (ofTyped result.2.state)) <$>
        Session.feedAll ⟨state, byWords⟩ stream := by
  induction stream generalizing state start with
  | nil => rfl
  | cons b rest ih =>
    rw [Raw.feedAll?, Raw.next?_ofTyped byWords b h.inRange, Session.feedAll, Session.feed]
    simp only [map_bind, bind_assoc, pure_bind, bind_map_left]
    apply (h.ensures_next byWords b).bind_congr
    rintro after (⟨rfl, -⟩ | hgrown)
    · rw [ih .idle]
      simp
    · rw [ih hgrown]
      simp

/-- **Bulk sessions are well formed.** Whatever a session was fed, and whatever memory and channel
answered, its state tells how the request in progress began. Kept with their opcodes, counted in
bytes, and with nothing but requests to keep them apart, its states are the same, and no step of
the arithmetic leaves its range. -/
theorem session_wellFormed (layout : Layout) (stream : Bytes) :
    ∃ cut : Cut Item.encode, (∀ other : Cut Item.encode, other.stream = stream ↔ other = cut) ∧
      ((Session.start layout).feedAll stream).Ensures
        (fun result => WellFormed (ofTyped result.2.state) cut.rest) ∧
      Raw.feedAll? (layout.paging = .banked) .idle stream =
        (fun result => some (ofTyped result.2.state)) <$>
          (Session.start layout).feedAll stream := by
  obtain ⟨cut, hcut⟩ := prefixCode.exists_cut_iff stream
  refine ⟨cut, hcut, ?_, Awaits.idle.feedAll?_eq _ stream⟩
  refine (Awaits.idle.ensures_feedAll _ stream).mono ?_
  rintro result ⟨found, hfound, hawaits⟩
  obtain rfl : found = cut := (hcut found).mp hfound
  exact hawaits.wellFormed

end Bulk

end DebugMonitor
