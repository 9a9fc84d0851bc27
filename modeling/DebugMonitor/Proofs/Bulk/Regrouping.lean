import DebugMonitor.Proofs.Bulk.Decoding
import DebugMonitor.Proofs.Console.OnBus

/-!
# Transfers split and regrouped

A host may cut a transfer into pieces wherever it likes. Two streams of requests are
`Interchangeable` if nobody can tell them apart: whatever the bus answers, the calls on it are the
same, and so is what is sent back. That is so for a block and the two blocks it is cut into, at any
place, for a word and the four bytes of it, and also in the middle of other requests
(`transfers_regroup`).

All of it comes down to the accesses of the items, which are made byte by byte. So the theorem rests
on equations between blocks (`readEach_add`, `writeEach_append`), and the session has no part in it
but to serve its items.
-/

namespace DebugMonitor

namespace Memory

/-- A block is written in two pieces. -/
theorem writeEach_append (address : UInt32) (first second : Bytes) :
    writeEach address (first ++ second) =
      (writeEach address first >>= fun _ =>
        writeEach (address + first.length.toUInt32) second) := by
  induction second using List.reverseRecOn with
  | nil =>
    rw [List.append_nil]
    exact (bind_pure _).symm
  | append_singleton second b ih =>
    rw [← List.append_assoc, writeEach_concat, ih, bind_assoc, List.length_append, Word.add_offset]
    simp only [writeEach_concat]

/-- Bytes on the flat memory are written as those of a block are. -/
theorem writeBytes_eq_writeEach (address : UInt32) (bytes : Bytes) :
    writeBytes address bytes = writeEach address bytes := by
  induction bytes generalizing address with
  | nil => rfl
  | cons b rest ih =>
    have hsplit := writeEach_append address [b] rest
    have hone : writeEach address [b] = write address b := by
      simp [writeEach]
    rw [List.singleton_append, hone] at hsplit
    rw [hsplit, writeBytes, ih]
    rfl

/-- A word is written as the four bytes of it. -/
theorem writeWord_eq_writeEach (address value : UInt32) :
    writeWord address value = writeEach address (Word.toBytes value) :=
  writeBytes_eq_writeEach address (Word.toBytes value)

end Memory

namespace Bulk

/-! ### Streams that cannot be told apart -/

/-- An idle session that is fed these items makes the given accesses, sends what they return, and is
idle again. -/
def ComesDownTo (items : List Item) (accesses : Program Memory Bytes) : Prop :=
  ∀ (layout : Layout) (desk : Desk) (byWords : Bool),
    Console.onBus layout desk (Session.feedAll ⟨.idle, byWords⟩ (items.flatMap Item.encode)) =
      layout.lower accesses >>= fun sent =>
        pure (.ok ((items.flatMap Item.flows, ⟨.idle, byWords⟩), desk.display sent))

/-- Wherever the items stand in a stream, the others can stand as well: the session makes the same
accesses and sends the same bytes. -/
def Interchangeable (items others : List Item) : Prop :=
  ∀ before after : List Item, ∃ accesses,
    ComesDownTo (before ++ items ++ after) accesses ∧
      ComesDownTo (before ++ others ++ after) accesses

/-- Items come down to the accesses they are served with. -/
theorem comesDownTo_serveAll (items : List Item) : ComesDownTo items (serveAll items) := by
  intro layout desk byWords
  rw [Console.onBus_of_sends layout desk (sends_feedAll_items byWords items), Layout.lower_bind,
    bind_assoc]
  rfl

theorem serveAll_append (first second : List Item) :
    serveAll (first ++ second) =
      (serveAll first >>= fun s => serveAll second >>= fun t => pure (s ++ t)) := by
  induction first with
  | nil => simp [serveAll]
  | cons item first ih =>
    rw [List.cons_append, serveAll, serveAll, ih]
    simp only [bind_assoc, pure_bind, List.append_assoc]

theorem serveAll_one (item : Item) : serveAll [item] = item.serve := by
  simp [serveAll]

theorem serveAll_two (first second : Item) :
    serveAll [first, second] =
      (first.serve >>= fun s => second.serve >>= fun t => pure (s ++ t)) := by
  simp [serveAll]

/-- Items that make the same accesses and send the same bytes can stand for one another. -/
theorem Interchangeable.of_serveAll_eq {items others : List Item}
    (h : serveAll items = serveAll others) : Interchangeable items others := by
  intro before after
  have hall : serveAll (before ++ items ++ after) = serveAll (before ++ others ++ after) := by
    simp only [serveAll_append, h]
  exact ⟨_, comesDownTo_serveAll _, hall ▸ comesDownTo_serveAll _⟩

/-! ### Blocks and words -/

/-- A block that is read in two pieces, of any lengths that add up to a word. -/
theorem interchangeable_readBlock (address : UInt32) {count more : UInt32}
    (h : count.toNat + more.toNat < 2 ^ 32) :
    Interchangeable [.readBlock address (count + more)]
      [.readBlock address count, .readBlock (address + count) more] := by
  apply Interchangeable.of_serveAll_eq
  have hlength : (count + more).toNat = count.toNat + more.toNat := by
    rw [UInt32.toNat_add, Nat.mod_eq_of_lt h]
  have hcount : count.toNat.toUInt32 = count := UInt32.ofNat_toNat
  rw [serveAll_one, serveAll_two]
  show Memory.readEach address (count + more).toNat =
    (Memory.readEach address count.toNat >>= fun s =>
      Memory.readEach (address + count) more.toNat >>= fun t => pure (s ++ t))
  rw [hlength, Memory.readEach_add, hcount]

/-- A block that is written in two pieces. -/
theorem interchangeable_writeBlock (address : UInt32) {first second : Bytes}
    (h : (first ++ second).length < 2 ^ 32) (hfirst : first.length < 2 ^ 32)
    (hsecond : second.length < 2 ^ 32) :
    Interchangeable [.writeBlock address (first ++ second) h]
      [.writeBlock address first hfirst,
        .writeBlock (address + first.length.toUInt32) second hsecond] := by
  apply Interchangeable.of_serveAll_eq
  simp [serveAll_one, serveAll_two, Item.serve, Memory.writeEach_append]

/-- A word can be written as a block of four bytes. -/
theorem interchangeable_writeWord (address value : UInt32) :
    Interchangeable [.writeWord address value]
      [.writeBlock address (Word.toBytes value) (Nat.le_of_ble_eq_true rfl)] := by
  apply Interchangeable.of_serveAll_eq
  simp only [serveAll_one, Item.serve, Memory.writeWord_eq_writeEach]

/-- A word can be read as a block of four bytes. -/
theorem interchangeable_readWord (address : UInt32) :
    Interchangeable [.readWord address] [.readBlock address 4] := by
  apply Interchangeable.of_serveAll_eq
  rw [serveAll_one, serveAll_one]
  exact Memory.readWord_toBytes address

/-- **Transfers can be split and regrouped anywhere.** A block can be read or written in two pieces,
cut where one likes, and either piece may be empty; a word can be read or written as a block of four
bytes. An idle session makes the same calls on the bus, whatever the bus answers, sends the same
bytes, and is idle again. -/
theorem transfers_regroup (address : UInt32) :
    (∀ count more : UInt32, count.toNat + more.toNat < 2 ^ 32 →
      Interchangeable [.readBlock address (count + more)]
        [.readBlock address count, .readBlock (address + count) more]) ∧
    (∀ (first second : Bytes) (h : first.length + second.length < 2 ^ 32),
      Interchangeable
        [.writeBlock address (first ++ second) (List.length_append ▸ h)]
        [.writeBlock address first (Nat.lt_of_add_right_lt h),
          .writeBlock (address + first.length.toUInt32) second (Nat.lt_of_add_left_lt h)]) ∧
    (∀ value : UInt32, Interchangeable [.writeWord address value]
      [.writeBlock address (Word.toBytes value) (Nat.le_of_ble_eq_true rfl)]) ∧
    Interchangeable [.readWord address] [.readBlock address 4] := by
  refine ⟨fun count more h => interchangeable_readBlock address h, fun first second h => ?_,
    fun value => interchangeable_writeWord address value, interchangeable_readWord address⟩
  exact interchangeable_writeBlock address _ _ _

/-- Pieces that are not whole words, across the end of the address space, and an empty one. -/
theorem transfers_regroup_wrapping :
    ((3 : UInt32).toNat + (6 : UInt32).toNat < 2 ^ 32 ∧
      Interchangeable [.readBlock 0xfffffffe 9] [.readBlock 0xfffffffe 3, .readBlock 1 6]) ∧
    (([0x0d, 0x57] : Bytes).length + ([] : Bytes).length < 2 ^ 32 ∧
      Interchangeable [.writeBlock 0xffffffff [0x0d, 0x57] (by decide)]
        [.writeBlock 0xffffffff [0x0d, 0x57] (by decide), .writeBlock 1 [] (by decide)]) := by
  have hcounts : (3 : UInt32).toNat + (6 : UInt32).toNat < 2 ^ 32 := by decide
  have hlengths : ([0x0d, 0x57] : Bytes).length + ([] : Bytes).length < 2 ^ 32 := by decide
  exact ⟨⟨hcounts, (transfers_regroup 0xfffffffe).1 3 6 hcounts⟩, hlengths,
    (transfers_regroup 0xffffffff).2.1 [0x0d, 0x57] [] hlengths⟩

end Bulk

end DebugMonitor
