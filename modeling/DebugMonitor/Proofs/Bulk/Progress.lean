import DebugMonitor.Proofs.Bulk.Serving

/-!
# Bulk sessions read items

A session takes a stream byte by byte and knows nothing of items. Its state still says how the item
in progress began: `Awaits` relates the states to the beginnings, and `Awaits.step` follows a byte.
It either completes an item, and all that is left to do for that item is done, or the item goes on.
No byte inside a request is special.
-/

namespace DebugMonitor.Bulk

open Console (Sends)

/-! ### Fields -/

/-- The field of which these bytes have come. -/
def Field.of (got : Bytes) : Field := ⟨Word.ofBytes got, got.length⟩

/-- Three bytes do not make a word. -/
theorem Field.push_of {got : Bytes} (h : got.length < 3) (b : UInt8) :
    (Field.of got).push b = .inl (.of (got ++ [b])) := by
  have hvalue := Word.ofBytes_concat (show got.length < 4 by omega) b
  have hcount : ¬ (Field.of got).count + 1 = 4 := by
    show ¬ got.length + 1 = 4
    omega
  rw [Field.push, if_neg hcount, Field.of, Field.of, hvalue, List.length_append]
  rfl

/-- The fourth byte completes it. -/
theorem Field.push_of_last {got : Bytes} (h : got.length = 3) (b : UInt8) :
    (Field.of got).push b = .inr (Word.ofBytes (got ++ [b])) := by
  have hvalue := Word.ofBytes_concat (show got.length < 4 by omega) b
  have hcount : (Field.of got).count + 1 = 4 := congrArg (· + 1) h
  rw [Field.push, if_pos hcount, hvalue]
  rfl

/-- A byte makes a field longer, or it is the last one of a word. -/
theorem Field.push_cases {got : Bytes} (h : got.length < 4) (b : UInt8) :
    ((got ++ [b]).length < 4 ∧ (Field.of got).push b = .inl (.of (got ++ [b]))) ∨
      ∃ word, (Field.of got).push b = .inr word ∧ got ++ [b] = Word.toBytes word := by
  have hlength : (got ++ [b]).length = got.length + 1 := List.length_append
  rcases Nat.lt_or_eq_of_le (Nat.le_of_lt_succ h) with hlt | hlast
  · exact .inl ⟨by omega, Field.push_of hlt b⟩
  · exact .inr ⟨_, Field.push_of_last hlast b, (Word.toBytes_ofBytes (by omega)).symm⟩

/-! ### Beginnings -/

def Transfer.opcode : Transfer → UInt8
  | .word .read => 'R'.toUInt8
  | .word .write => 'W'.toUInt8
  | .block .read => 'r'.toUInt8
  | .block .write => 'w'.toUInt8

/-- The states of a session, and how the item in progress has begun. -/
inductive Awaits : State → Bytes → Prop where
  | idle : Awaits .idle []
  | address (transfer : Transfer) {got : Bytes} (h : got.length < 4) :
      Awaits (.address transfer (.of got)) (transfer.opcode :: got)
  | value (address : UInt32) {got : Bytes} (h : got.length < 4) :
      Awaits (.value address (.of got)) ('W'.toUInt8 :: (Word.toBytes address ++ got))
  | length (direction : Direction) (address : UInt32) {got : Bytes} (h : got.length < 4) :
      Awaits (.length direction address (.of got))
        ((Transfer.block direction).opcode :: (Word.toBytes address ++ got))
  | data (address length : UInt32) {data : Bytes} (h : data.length < length.toNat) :
      Awaits (.data (address + data.length.toUInt32) (length - data.length.toUInt32))
        ('w'.toUInt8 :: (Word.toBytes address ++ (Word.toBytes length ++ data)))

/-- A session is idle between items, and only there. -/
theorem Awaits.eq_idle_iff {state : State} {start : Bytes} (h : Awaits state start) :
    state = .idle ↔ start = [] := by
  cases h with
  | idle => simp
  | address => simp
  | value => simp
  | length => simp
  | data => simp

/-- What has been done when an item is not complete yet: the data of a block is written as it
comes, and everything else waits for the last byte. -/
def begun (start : Bytes) : Program Memory Unit :=
  if start.head? = some 'w'.toUInt8 then
    Memory.writeEach (Word.ofBytes (start.tail.take 4)) (start.drop 9)
  else pure ()

/-- Nothing is written before the data of a block has begun. -/
theorem begun_of_length_le {start : Bytes} (h : start.length ≤ 9) : begun start = pure () := by
  rw [begun, List.drop_eq_nil_of_le h]
  split
  · rfl
  · rfl

theorem begun_nil : begun [] = pure () := rfl

/-- Of a block that is still coming, the bytes that came are written. -/
theorem begun_data (address length : UInt32) (data : Bytes) :
    begun ('w'.toUInt8 :: (Word.toBytes address ++ (Word.toBytes length ++ data))) =
      Memory.writeEach address data := by
  have haddress : Word.ofBytes ((Word.toBytes address ++ (Word.toBytes length ++ data)).take 4) =
      address :=
    Word.ofBytes_toBytes address
  rw [begun, List.head?_cons, if_pos rfl, List.tail_cons, haddress]
  rfl

/-! ### One byte -/

/-- What a byte makes of a beginning: an item that is served now, or a longer beginning. -/
inductive Step (byWords : Bool) (state : State) (start : Bytes) (b : UInt8) : Prop where
  | finished (item : Item) (effect : Program Memory Bytes)
      (encode_eq : item.encode = start ++ [b])
      (flow_eq : item.flows = start.map (fun _ => .more) ++ [Session.flow state b])
      (sends : Sends (Session.next byWords b state) (effect >>= fun s => pure (.idle, s)))
      (effect_eq : (begun start >>= fun _ => effect) = item.serve)
  | unfinished (after : State) (effect : Program Memory Unit)
      (awaits : Awaits after (start ++ [b]))
      (flow_eq : Session.flow state b = .more)
      (sends : Sends (Session.next byWords b state) (effect >>= fun _ => pure (after, [])))
      (effect_eq : (begun start >>= fun _ => effect) = begun (start ++ [b]))

theorem eq_of_ofByte?_exit {b : UInt8} (h : Opcode.ofByte? b = some .exit) : b = '\r'.toUInt8 := by
  simp only [Opcode.ofByte?] at h
  grind

theorem eq_of_ofByte?_transfer {b : UInt8} {transfer : Transfer}
    (h : Opcode.ofByte? b = some (.transfer transfer)) : b = transfer.opcode := by
  simp only [Opcode.ofByte?] at h
  grind [Transfer.opcode]

variable {byWords : Bool} {state : State} {start : Bytes} {b : UInt8}

/-- Inside a request every byte is data. -/
theorem flow_of_ne_idle (h : state ≠ .idle) : Session.flow state b = .more :=
  if_neg fun hidle => h hidle.1

/-- The bytes of a request are answered alike, up to the one that completes it. -/
theorem flows_of_request {item : Item} (hidle : state ≠ .idle) (hexit : item ≠ .exit)
    (hencode : item.encode = start ++ [b]) :
    item.flows = start.map (fun _ => .more) ++ [Session.flow state b] := by
  rw [flow_of_ne_idle hidle, Item.flows_of_ne_exit hexit, hencode, List.map_append]
  rfl

namespace Step

/-- The last byte of a request that waited for it. -/
theorem of_request (item : Item) (hidle : state ≠ .idle) (hexit : item ≠ .exit)
    (hencode : item.encode = start ++ [b]) (hstart : start.length ≤ 9)
    (hsends : Sends (Session.next byWords b state) (item.serve >>= fun s => pure (.idle, s))) :
    Step byWords state start b := by
  refine .finished item item.serve hencode (flows_of_request hidle hexit hencode) hsends ?_
  rw [begun_of_length_le hstart, pure_bind]

/-- A byte in the middle of a request that waits for more. -/
theorem of_waiting (after : State) (hidle : state ≠ .idle) (hawaits : Awaits after (start ++ [b]))
    (hstart : (start ++ [b]).length ≤ 9) (hnext : Session.next byWords b state = pure after) :
    Step byWords state start b := by
  refine .unfinished after (pure ()) hawaits (flow_of_ne_idle hidle) ?_ ?_
  · rw [hnext, pure_bind]
    exact .pure after
  · rw [begun_of_length_le hstart, begun_of_length_le (by simp at hstart; omega), pure_bind]

end Step

/-- Between two items a byte is an opcode or nothing. -/
theorem step_idle (byWords : Bool) (b : UInt8) : Step byWords .idle [] b := by
  cases hopcode : Opcode.ofByte? b with
  | none =>
    have hb := (Item.ofByte?_eq_none_iff b).mp hopcode
    refine .finished (.filler b hb) (pure []) rfl ?_ ?_ rfl
    · rw [Session.flow, if_neg (by simp [hopcode])]
      rfl
    · rw [Session.next, hopcode, pure_bind]
      exact .pure State.idle
  | some opcode =>
    cases opcode with
    | exit =>
      obtain rfl := eq_of_ofByte?_exit hopcode
      exact .finished .exit (pure []) rfl rfl (.pure State.idle) rfl
    | transfer transfer =>
      obtain rfl := eq_of_ofByte?_transfer hopcode
      have hempty : ([] : Bytes).length < 4 := Nat.zero_lt_succ 3
      have hawaits : Awaits (.address transfer {}) [transfer.opcode] := .address transfer hempty
      refine .unfinished (.address transfer {}) (pure ()) hawaits ?_ ?_ ?_
      · rw [Session.flow, if_neg (by simp [hopcode])]
      · rw [Session.next, hopcode, pure_bind]
        exact .pure _
      · rw [begun_of_length_le (by simp), begun_of_length_le (by simp), pure_bind]

/-- A byte of a field. The field is filled in the same way wherever it stands, so it is only the
last byte that a state with a field has to answer for. -/
theorem step_field {byWords : Bool} {b : UInt8} {front got : Bytes} {wrap : Field → State}
    {complete : UInt32 → Program Console State} (hidle : ∀ field, wrap field ≠ .idle)
    (hfront : front.length ≤ 5) (hgot : got.length < 4)
    (hnext : ∀ field, Session.next byWords b (wrap field) =
      match field.push b with
      | .inl field => pure (wrap field)
      | .inr word => complete word)
    (hawaits : ∀ {got : Bytes}, got.length < 4 → Awaits (wrap (.of got)) (front ++ got))
    (hlast : ∀ word, front ++ got ++ [b] = front ++ Word.toBytes word →
      (front ++ got).length ≤ 9 → Session.next byWords b (wrap (.of got)) = complete word →
      Step byWords (wrap (.of got)) (front ++ got) b) :
    Step byWords (wrap (.of got)) (front ++ got) b := by
  -- Either the field is still short, or this is its fourth byte.
  have hpush := hnext (.of got)
  rcases Field.push_cases hgot b with ⟨hgrown, hfield⟩ | ⟨word, hfield, hword⟩
  · rw [hfield] at hpush
    refine .of_waiting (wrap (.of (got ++ [b]))) (hidle _) ?_ ?_ hpush
    · rw [List.append_assoc]
      exact hawaits hgrown
    · rw [List.append_assoc, List.length_append]
      omega
  · rw [hfield] at hpush
    refine hlast word ?_ ?_ hpush
    · rw [List.append_assoc, hword]
    · rw [List.length_append]
      omega

/-- Four bytes give the address, and then the opcode says what is missing. -/
theorem step_address (byWords : Bool) (transfer : Transfer) {got : Bytes} (h : got.length < 4)
    (b : UInt8) : Step byWords (.address transfer (.of got)) (transfer.opcode :: got) b := by
  have hidle : ∀ field, State.address transfer field ≠ .idle := nofun
  have hfront : [transfer.opcode].length ≤ 5 := Nat.le_of_ble_eq_true rfl
  have hempty : ([] : Bytes).length < 4 := Nat.zero_lt_succ 3
  refine step_field hidle hfront h (fun _ => rfl) (.address transfer) ?_
  intro address hstart hshort hnext
  match transfer with
  | .word .read =>
    -- The word is read and sent with the last byte of its address.
    refine .of_request (.readWord address) (hidle _) nofun hstart.symm hshort ?_
    rw [hnext, Item.serve, Memory.readWord_toBytes]
    exact (Session.sends_sendWord address).returning State.idle
  | .word .write =>
    -- Every other transfer has more fields to come.
    refine .of_waiting (.value address {}) (hidle _) ?_ ?_ hnext
    · rw [hstart]
      exact .value address hempty
    · rw [hstart]
      exact Nat.le_of_ble_eq_true rfl
  | .block direction =>
    refine .of_waiting (.length direction address {}) (hidle _) ?_ ?_ hnext
    · rw [hstart]
      exact .length direction address hempty
    · rw [hstart]
      exact Nat.le_of_ble_eq_true rfl

theorem step_value (byWords : Bool) (address : UInt32) {got : Bytes} (h : got.length < 4)
    (b : UInt8) :
    Step byWords (.value address (.of got)) ('W'.toUInt8 :: (Word.toBytes address ++ got)) b := by
  have hidle : ∀ field, State.value address field ≠ .idle := nofun
  have hfront : ('W'.toUInt8 :: Word.toBytes address).length ≤ 5 := Nat.le_refl 5
  refine step_field hidle hfront h (fun _ => rfl) (.value address) ?_
  intro value hstart hshort hnext
  have hsends := (Sends.memory (Memory.writeWord address value)).bind fun _ => .pure State.idle
  refine .of_request (.writeWord address value) (hidle _) nofun hstart.symm hshort ?_
  rw [hnext]
  simpa [Item.serve] using hsends

theorem step_length (byWords : Bool) (direction : Direction) (address : UInt32) {got : Bytes}
    (h : got.length < 4) (b : UInt8) :
    Step byWords (.length direction address (.of got))
      ((Transfer.block direction).opcode :: (Word.toBytes address ++ got)) b := by
  have hidle : ∀ field, State.length direction address field ≠ .idle := nofun
  have hfront : ((Transfer.block direction).opcode :: Word.toBytes address).length ≤ 5 :=
    Nat.le_refl 5
  refine step_field hidle hfront h (fun _ => rfl) (.length direction address) ?_
  intro length hstart hshort hnext
  cases direction with
  | read =>
    refine .of_request (.readBlock address length) (hidle _) nofun hstart.symm hshort ?_
    rw [hnext]
    exact (Session.sends_sendBlock byWords address length.toNat).returning State.idle
  | write =>
    rw [Session.feedLength] at hnext
    by_cases hzero : length = 0
    · -- A block of no bytes is complete with its length.
      subst hzero
      refine .of_request (.writeBlock address [] (by decide)) (hidle _) nofun hstart.symm hshort ?_
      rw [hnext, if_pos rfl]
      exact .pure State.idle
    · rw [if_neg hzero] at hnext
      have hpos : ([] : Bytes).length < length.toNat :=
        Nat.pos_of_ne_zero fun hnat => hzero (UInt32.toNat_inj.mp hnat)
      have hawaits := Awaits.data address length hpos
      rw [List.append_nil, List.length_nil, show (0 : Nat).toUInt32 = 0 from rfl,
        UInt32.add_zero, UInt32.sub_zero] at hawaits
      refine .of_waiting (.data address length) (hidle _) ?_ ?_ hnext
      · rw [hstart]
        exact hawaits
      · rw [hstart]
        exact Nat.le_of_ble_eq_true rfl

/-- A number of bytes short of a length, as words have it. -/
theorem toNat_sub_count {length : UInt32} {count : Nat} (h : count < length.toNat) :
    (length - count.toUInt32).toNat = length.toNat - count := by
  have hcount : count.toUInt32.toNat = count :=
    UInt32.toNat_ofNat_of_lt' (h.trans length.toNat_lt)
  have hle : count.toUInt32 ≤ length := by
    rw [UInt32.le_iff_toNat_le, hcount]
    exact h.le
  rw [UInt32.toNat_sub_of_le _ _ hle, hcount]

/-- Every byte of a block is written when it comes, the last one included. -/
theorem step_data (byWords : Bool) (address length : UInt32) {data : Bytes}
    (h : data.length < length.toNat) (b : UInt8) :
    Step byWords (.data (address + data.length.toUInt32) (length - data.length.toUInt32))
      ('w'.toUInt8 :: (Word.toBytes address ++ (Word.toBytes length ++ data))) b := by
  have hidle : State.data (address + data.length.toUInt32)
      (length - data.length.toUInt32) ≠ .idle :=
    nofun
  have hstart : 'w'.toUInt8 :: (Word.toBytes address ++ (Word.toBytes length ++ data)) ++ [b] =
      'w'.toUInt8 :: (Word.toBytes address ++ (Word.toBytes length ++ (data ++ [b]))) := by
    simp only [List.cons_append, List.append_assoc]
  have hgrown : (data ++ [b]).length = data.length + 1 := List.length_append
  have hleft := toNat_sub_count h
  have hwrite := Sends.memory (Memory.write (address + data.length.toUInt32) b)
  by_cases hlast : length - data.length.toUInt32 = 1
  · -- The byte is the last of the block, so the block is one of that many bytes.
    rw [hlast, UInt32.toNat_one] at hleft
    have hlength : (data ++ [b]).length = length.toNat := by omega
    have hlt : (data ++ [b]).length < 2 ^ 32 := hlength ▸ length.toNat_lt
    have hencode : (Item.writeBlock address (data ++ [b]) hlt).encode =
        'w'.toUInt8 :: (Word.toBytes address ++ (Word.toBytes length ++ data)) ++ [b] := by
      rw [hstart, Item.encode, hlength]
      show _ :: (_ ++ (Word.toBytes (UInt32.ofNat length.toNat) ++ _)) = _
      rw [UInt32.ofNat_toNat]
    refine .finished (.writeBlock address (data ++ [b]) hlt)
      (Memory.write (address + data.length.toUInt32) b >>= fun _ => pure []) hencode
      (flows_of_request hidle nofun hencode) ?_ ?_
    · have hsends := hwrite.bind fun _ => .pure State.idle
      rw [Session.next, hlast]
      simpa using hsends
    · rw [begun_data, Item.serve, Memory.writeEach_concat, bind_assoc]
  · -- The block is not complete, and the byte goes behind those that were written before.
    have hmore : (data ++ [b]).length < length.toNat := by
      have hne : (length - data.length.toUInt32).toNat ≠ 1 := fun hnat =>
        hlast (UInt32.toNat_inj.mp hnat)
      omega
    have hnext : (data ++ [b]).length.toUInt32 = data.length.toUInt32 + 1 := by
      rw [hgrown]
      exact UInt32.ofNat_add data.length 1
    have hremaining : length - data.length.toUInt32 - 1 = length - (data.length.toUInt32 + 1) :=
      UInt32.eq_of_toBitVec_eq (BitVec.sub_sub _ _ _)
    have hawaits := Awaits.data address length hmore
    rw [hnext, ← UInt32.add_assoc, ← hremaining, ← hstart] at hawaits
    refine .unfinished _ (Memory.write (address + data.length.toUInt32) b) hawaits
      (flow_of_ne_idle hidle) ?_ ?_
    · have hsends := hwrite.bind fun _ => .pure (State.data (address + data.length.toUInt32 + 1)
        (length - data.length.toUInt32 - 1))
      rw [Session.next]
      simpa [hlast] using hsends
    · rw [hstart, begun_data, begun_data, Memory.writeEach_concat]

/-- Every byte that comes is accounted for. -/
theorem Awaits.step (byWords : Bool) {state : State} {start : Bytes} (h : Awaits state start)
    (b : UInt8) : Step byWords state start b := by
  cases h with
  | idle => exact step_idle byWords b
  | address transfer h => exact step_address byWords transfer h b
  | value address h => exact step_value byWords address h b
  | length direction address h => exact step_length byWords direction address h b
  | data address length h => exact step_data byWords address length h b

/-! ### Ranges -/

/-- A field has room for one more byte, and some byte of a block in progress is still to come. So no
byte of a field is shifted out of the word, and no count falls below zero. -/
def State.InRange : State → Prop
  | .idle => True
  | .address _ field | .value _ field | .length _ _ field => field.count < 4
  | .data _ remaining => 0 < remaining

/-- The counters of a state stay in their ranges. -/
theorem Awaits.inRange {state : State} {start : Bytes} (h : Awaits state start) :
    state.InRange := by
  cases h with
  | idle => trivial
  | address transfer hgot => exact hgot
  | value address hgot => exact hgot
  | length direction address hgot => exact hgot
  | data address length hdata =>
    rw [State.InRange, UInt32.lt_iff_toNat_lt, toNat_sub_count hdata]
    exact Nat.sub_pos_of_lt hdata

end DebugMonitor.Bulk
