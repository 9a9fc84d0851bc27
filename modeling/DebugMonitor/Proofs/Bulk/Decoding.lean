import DebugMonitor.Proofs.Bulk.Progress
import DebugMonitor.Sim.Chip

/-!
# Bulk sessions decode every stream

A bulk session has no framing and no errors, so it makes something of any bytes, and
`session_reads_items` says what. The stream is cut into items, which can be done in one way only,
and each of them is served in turn, while the rest is the beginning of a request that is not
complete yet. The exits are found where the items have them, and nowhere else.

A session that is run reads the same items from the terminal. It ends at the first exit and leaves
what comes behind it unread.
-/

namespace DebugMonitor.Bulk

open Console (Sends)

/-! ### The cut -/

theorem unfinished_of_length_lt (item : Item) {start : Bytes} (hbegins : start <+: item.encode)
    (hlt : start.length < item.encode.length) : Unfinished Item.encode start :=
  ⟨item, hbegins, fun heq => absurd (congrArg List.length heq) hlt.ne⟩

/-- A field in progress can still become a word. -/
theorem exists_completion {got : Bytes} (h : got.length < 4) :
    ∃ word, got <+: Word.toBytes word := by
  have hlength : (got ++ List.replicate (4 - got.length) 0).length = 4 := by
    simp
    omega
  exact ⟨Word.ofBytes (got ++ List.replicate (4 - got.length) 0),
    Word.toBytes_ofBytes hlength ▸ List.prefix_append got _⟩

/-- A session that is not idle has seen the beginning of an item, and no more. -/
theorem Awaits.unfinished {state : State} {start : Bytes} (h : Awaits state start) :
    Unfinished Item.encode start := by
  cases h with
  | idle => exact ⟨.exit, List.nil_prefix, nofun⟩
  | @address transfer got h =>
    obtain ⟨word, hgot⟩ := exists_completion h
    have hfirst : ∀ rest, got <+: Word.toBytes word ++ rest :=
      fun rest => hgot.trans (List.prefix_append _ rest)
    match transfer with
    | .word .read =>
      refine unfinished_of_length_lt (.readWord word) (List.cons_prefix_cons.mpr ⟨rfl, hgot⟩) ?_
      simp [Item.encode]
      omega
    | .word .write =>
      refine unfinished_of_length_lt (.writeWord word 0)
        (List.cons_prefix_cons.mpr ⟨rfl, hfirst _⟩) ?_
      simp [Item.encode]
      omega
    | .block .read =>
      refine unfinished_of_length_lt (.readBlock word 0)
        (List.cons_prefix_cons.mpr ⟨rfl, hfirst _⟩) ?_
      simp [Item.encode]
      omega
    | .block .write =>
      refine unfinished_of_length_lt (.writeBlock word [] (by decide))
        (List.cons_prefix_cons.mpr ⟨rfl, hfirst _⟩) ?_
      simp [Item.encode]
      omega
  | @value address got h =>
    obtain ⟨word, hgot⟩ := exists_completion h
    refine unfinished_of_length_lt (.writeWord address word) ?_ ?_
    · exact List.cons_prefix_cons.mpr ⟨rfl, (List.prefix_append_right_inj _).mpr hgot⟩
    · simp [Item.encode]
      omega
  | @length direction address got h =>
    obtain ⟨word, hgot⟩ := exists_completion h
    cases direction with
    | read =>
      refine unfinished_of_length_lt (.readBlock address word) ?_ ?_
      · exact List.cons_prefix_cons.mpr ⟨rfl, (List.prefix_append_right_inj _).mpr hgot⟩
      · simp [Item.encode]
        omega
    | write =>
      -- A block of zeros is as good as any of that length.
      have hword : (List.replicate word.toNat (0 : UInt8)).length.toUInt32 = word := by
        rw [List.length_replicate]
        exact UInt32.ofNat_toNat
      have hlt : (List.replicate word.toNat (0 : UInt8)).length < 2 ^ 32 := by
        rw [List.length_replicate]
        exact word.toNat_lt
      refine unfinished_of_length_lt (.writeBlock address _ hlt) ?_ ?_
      · rw [Item.encode, hword]
        exact List.cons_prefix_cons.mpr ⟨rfl, (List.prefix_append_right_inj _).mpr
          (hgot.trans (List.prefix_append _ _))⟩
      · simp [Item.encode]
        omega
  | @data address length data h =>
    have hcount : (data ++ List.replicate (length.toNat - data.length) 0).length =
        length.toNat := by
      rw [List.length_append, List.length_replicate]
      omega
    refine unfinished_of_length_lt (.writeBlock address _ (hcount ▸ length.toNat_lt)) ?_ ?_
    · rw [Item.encode, hcount, show length.toNat.toUInt32 = length from UInt32.ofNat_toNat]
      exact List.cons_prefix_cons.mpr ⟨rfl, (List.prefix_append_right_inj _).mpr
        ((List.prefix_append_right_inj _).mpr (List.prefix_append _ _))⟩
    · rw [Item.encode]
      simp only [List.length_cons, List.length_append, Word.length_toBytes, List.length_replicate]
      omega

/-- Every beginning is one that a session can be waiting in. -/
theorem awaits_of_unfinished {start : Bytes} (h : Unfinished Item.encode start) :
    ∃ state, Awaits state start := by
  induction start using List.reverseRecOn with
  | nil => exact ⟨.idle, .idle⟩
  | append_singleton start b ih =>
    obtain ⟨whole, hbegins, hne⟩ := h
    have hshorter : Unfinished Item.encode start := by
      refine unfinished_of_length_lt whole ((List.prefix_append start [b]).trans hbegins) ?_
      exact Nat.lt_of_lt_of_le (by simp) hbegins.length_le
    obtain ⟨state, hstate⟩ := ih hshorter
    cases hstate.step false b with
    | finished item effect hencode =>
      -- Then the beginning was an item already, and no item begins another.
      obtain rfl := Item.encode_prefixFree (hencode ▸ hbegins)
      exact absurd hencode.symm hne
    | unfinished after effect hafter => exact ⟨after, hafter⟩

/-- Items are a prefix code, so a stream has one cut into them. -/
theorem prefixCode : PrefixCode Item.encode where
  nil := Awaits.idle.unfinished
  prefixFree := Item.encode_prefixFree
  grows h b := by
    obtain ⟨state, hstate⟩ := awaits_of_unfinished h
    cases hstate.step false b with
    | finished item effect hencode => exact .inl ⟨item, hencode⟩
    | unfinished after effect hafter => exact .inr hafter.unfinished

/-! ### Feeding a stream -/

/-- The replies to items that are served one after the other. -/
def serveAll : List Item → Program Memory Bytes
  | [] => pure []
  | item :: items => do
    let first ← item.serve
    let rest ← serveAll items
    return first ++ rest

/-- What is done for a stream: its items are served, and the last request has begun. -/
def serveCut (cut : Cut Item.encode) : Program Memory Bytes := do
  let replies ← serveAll cut.items
  begun cut.rest
  return replies

/-- The answers to the bytes of a stream. -/
def flowsCut (cut : Cut Item.encode) : List Flow :=
  cut.items.flatMap Item.flows ++ cut.rest.map fun _ => .more

/-- Feeds a stream, whatever the answers are. -/
def Session.feedAll (session : Session) : Bytes → Program Console (List Flow × Session)
  | [] => pure ([], session)
  | b :: rest => do
    let (flow, session) ← session.feed b
    let (flows, session) ← session.feedAll rest
    return (flow :: flows, session)

/-- The accesses for the first byte come first, and then those for the rest. -/
theorem sends_feedAll_cons {session next last : Session} {b : UInt8} {rest : Bytes} {flow : Flow}
    {flows : List Flow} {first later : Program Memory Bytes}
    (hfirst : Sends (session.feed b) (first >>= fun s => pure ((flow, next), s)))
    (hrest : Sends (next.feedAll rest) (later >>= fun t => pure ((flows, last), t))) :
    Sends (session.feedAll (b :: rest))
      ((first >>= fun s => later >>= fun t => pure (s ++ t)) >>= fun s =>
        pure ((flow :: flows, last), s)) := by
  have hlast : Sends (next.feedAll rest >>= fun entry => pure (flow :: entry.1, entry.2))
      (later >>= fun t => pure ((flow :: flows, last), t)) := by
    simpa using hrest.bind fun entry => .pure (flow :: entry.1, entry.2)
  have h := Sends.andThen (fun entry : Flow × Session =>
    entry.2.feedAll rest >>= fun found => pure (entry.1 :: found.1, found.2)) hfirst hlast
  simpa [Session.feedAll] using h

theorem sends_feed {byWords : Bool} {state after : State} {b : UInt8}
    {effect : Program Memory Bytes}
    (h : Sends (Session.next byWords b state) (effect >>= fun s => pure (after, s))) :
    Sends (Session.feed ⟨state, byWords⟩ b)
      (effect >>= fun s => pure ((Session.flow state b, ⟨after, byWords⟩), s)) := by
  simpa [Session.feed] using h.bind fun found =>
    .pure (Session.flow state b, (⟨found, byWords⟩ : Session))

/-- A session in the middle of a request: what is left of the stream completes it. -/
theorem feedAll_awaits (byWords : Bool) {state : State} {start : Bytes} (h : Awaits state start)
    (stream : Bytes) :
    ∃ (cut : Cut Item.encode) (after : State) (flows : List Flow) (effect : Program Memory Bytes),
      cut.stream = start ++ stream ∧ Awaits after cut.rest ∧
      flowsCut cut = start.map (fun _ => .more) ++ flows ∧
      Sends (Session.feedAll ⟨state, byWords⟩ stream)
        (effect >>= fun s => pure ((flows, ⟨after, byWords⟩), s)) ∧
      (begun start >>= fun _ => effect) = serveCut cut := by
  induction stream generalizing state start with
  | nil =>
    refine ⟨⟨[], start, h.unfinished⟩, state, [], pure [], ?_, h, ?_, ?_, ?_⟩
    · simp [Cut.stream]
    · simp [flowsCut]
    · simpa [Session.feedAll] using Sends.pure (([] : List Flow), (⟨state, byWords⟩ : Session))
    · simp [serveCut, serveAll]
  | cons b rest ih =>
    cases h.step byWords b with
    | finished item effect hencode hflow hsends heffect =>
      -- The rest of the stream is cut from here on, and the item goes in front.
      obtain ⟨cut, after, flows, later, hstream, hafter, hflows, hlater, hserve⟩ := ih .idle
      refine ⟨⟨item :: cut.items, cut.rest, cut.unfinished⟩, after, Session.flow state b :: flows,
        effect >>= fun s => later >>= fun t => pure (s ++ t), ?_, hafter, ?_,
        sends_feedAll_cons (sends_feed hsends) hlater, ?_⟩
      · rw [Cut.stream] at hstream ⊢
        rw [List.flatMap_cons, List.append_assoc, hstream, hencode]
        simp
      · rw [flowsCut] at hflows ⊢
        rw [List.flatMap_cons, List.append_assoc, hflows, hflow]
        simp
      · rw [begun_nil, pure_bind] at hserve
        rw [hserve, ← bind_assoc, heffect]
        simp [serveCut, serveAll]
    | unfinished grown effect hgrown hflow hsends heffect =>
      -- The item in progress is longer by a byte, and the cut is the same.
      obtain ⟨cut, after, flows, later, hstream, hafter, hflows, hlater, hserve⟩ := ih hgrown
      refine ⟨cut, after, .more :: flows, effect >>= fun _ => later, ?_, hafter, ?_, ?_, ?_⟩
      · rw [hstream, List.append_assoc, List.singleton_append]
      · rw [hflows, List.map_append, List.append_assoc]
        rfl
      · have hall := sends_feedAll_cons (sends_feed hsends.silent) hlater
        rw [hflow] at hall
        simpa using hall
      · rw [← bind_assoc, heffect, hserve]

/-- An idle session that is fed whole items serves them, and is idle again. -/
theorem sends_feedAll_items (byWords : Bool) (items : List Item) :
    Sends (Session.feedAll ⟨.idle, byWords⟩ (items.flatMap Item.encode))
      (serveAll items >>= fun s => pure ((items.flatMap Item.flows, ⟨.idle, byWords⟩), s)) := by
  obtain ⟨cut, state, flows, effect, hstream, hawaits, hflows, hsends, heffect⟩ :=
    feedAll_awaits byWords .idle (items.flatMap Item.encode)
  -- The stream is these items and nothing else.
  obtain rfl : cut = ⟨items, [], prefixCode.nil⟩ := by
    apply prefixCode.cut_eq
    rw [hstream]
    simp [Cut.stream]
  obtain rfl : state = .idle := hawaits.eq_idle_iff.mpr rfl
  obtain rfl : items.flatMap Item.flows = flows := by simpa [flowsCut] using hflows
  have hserve : effect = serveAll items := by
    rw [begun_nil, pure_bind] at heffect
    rw [heffect]
    simp [serveCut, begun_nil]
  exact hserve ▸ hsends

/-! ### Running a session -/

section

variable {m : Type → Type} [Monad m] [LawfulMonad m] [Stalls m] [LawfulStalls m]
  [MonadExceptOf Stop m] (layout : Layout) (bus : Handler Bus m)

/-- One round of a session that is run. -/
theorem handle_serve {byWords : Bool} {state after : State} {b : UInt8}
    {effect : Program Memory Bytes}
    (h : Sends (Session.next byWords b state) (effect >>= fun s => pure (after, s)))
    (patience : Nat) {desk : Desk} {rest : Bytes} (htyped : desk.terminal.typed = b :: rest) :
    (Session.serve ⟨state, byWords⟩ (patience + 1)).handle (Desk.console layout bus) desk =
      ((layout.lower effect).handle bus >>= fun s =>
        (match Session.flow state b with
          | .exit => pure ()
          | .more => Session.serve ⟨after, byWords⟩ patience).handle (Desk.console layout bus)
            ((desk.withTyped rest).display s)) := by
  have hfeed := sends_feed h m layout bus (desk.withTyped rest)
  rw [Session.serve, Desk.handle_bind, Desk.handle_receive layout bus htyped, pure_bind,
    Desk.handle_bind, hfeed, Layout.lower_bind, Program.handle_bind]
  simp only [bind_assoc, Layout.lower_pure, Program.handle_pure, pure_bind]
  cases Session.flow state b with
  | exit => rfl
  | more => rfl

/-- A session that is run in the middle of a request serves the items up to the exit. -/
theorem serve_awaits (byWords : Bool) {state : State} {start : Bytes} (h : Awaits state start)
    {items : List Item} (hexit : Item.exit ∉ items) {stream : Bytes}
    (hstream : items.flatMap Item.encode = start ++ stream) {patience : Nat}
    (hpatience : stream.length < patience) (rest : Bytes) :
    ∃ effect : Program Memory Bytes, (begun start >>= fun _ => effect) = serveAll items ∧
      ∀ desk : Desk, desk.terminal.typed = stream ++ '\r'.toUInt8 :: rest →
        (Session.serve ⟨state, byWords⟩ patience).handle (Desk.console layout bus) desk =
          ((layout.lower effect).handle bus >>= fun s =>
            pure ((), (desk.withTyped rest).display s)) := by
  obtain ⟨patience, rfl⟩ := Nat.exists_eq_add_one_of_ne_zero (Nat.ne_zero_of_lt hpatience)
  induction stream generalizing state start items patience with
  | nil =>
    -- The beginning of a request is no sequence of items, so there are none.
    obtain rfl : items = [] :=
      prefixCode.items_eq_nil prefixCode.nil h.unfinished (by simpa using hstream)
    obtain rfl : start = [] := by simpa using hstream.symm
    obtain rfl : state = .idle := h.eq_idle_iff.mpr rfl
    refine ⟨pure [], rfl, ?_⟩
    intro desk htyped
    have hnext : Sends (Session.next byWords '\r'.toUInt8 .idle)
        (pure [] >>= fun s => pure (.idle, s)) := .pure State.idle
    rw [handle_serve layout bus hnext patience htyped]
    rfl
  | cons b stream ih =>
    have hshorter : stream.length < patience := Nat.lt_of_succ_lt_succ hpatience
    obtain ⟨patience, rfl⟩ := Nat.exists_eq_add_one_of_ne_zero (Nat.ne_zero_of_lt hshorter)
    cases h.step byWords b with
    | finished item effect hencode hflow hsends heffect =>
      -- The item that is complete now is the first one, so it is no exit.
      obtain ⟨items, rfl, htail⟩ := prefixCode.exists_cons prefixCode.nil hencode
        ((List.append_nil _).trans hstream)
      rw [List.append_nil] at htail
      rw [List.mem_cons, not_or] at hexit
      obtain ⟨hfirst, hexit⟩ := hexit
      rcases Item.last_flow hencode hflow with ⟨rfl, -⟩ | ⟨-, hmore⟩
      · exact absurd rfl hfirst
      obtain ⟨later, hlater, hrun⟩ := ih .idle hexit htail patience hshorter
      rw [begun_nil, pure_bind] at hlater
      refine ⟨effect >>= fun s => later >>= fun t => pure (s ++ t), ?_, ?_⟩
      · rw [← bind_assoc, heffect, hlater]
        rfl
      · intro desk htyped
        rw [List.cons_append] at htyped
        rw [handle_serve layout bus hsends _ htyped, hmore]
        have hround := fun s => hrun ((desk.withTyped (stream ++ '\r'.toUInt8 :: rest)).display s)
          rfl
        simp only [hround, Layout.lower_bind, Program.handle_bind, bind_assoc, Layout.lower_pure,
          Program.handle_pure, pure_bind, Desk.display_append]
        rfl
    | unfinished grown effect hgrown hflow hsends heffect =>
      have htail : items.flatMap Item.encode = start ++ [b] ++ stream := by
        rw [hstream, List.append_assoc, List.singleton_append]
      obtain ⟨later, hlater, hrun⟩ := ih hgrown hexit htail patience hshorter
      refine ⟨effect >>= fun _ => later, ?_, ?_⟩
      · rw [← bind_assoc, heffect, hlater]
      · intro desk htyped
        rw [List.cons_append] at htyped
        rw [handle_serve layout bus hsends.silent _ htyped, hflow]
        have hround := fun s => hrun ((desk.withTyped (stream ++ '\r'.toUInt8 :: rest)).display s)
          rfl
        simp only [hround, Layout.lower_bind, Program.handle_bind, bind_assoc, Layout.lower_pure,
          Program.handle_pure, pure_bind, Desk.display_nil]
        rfl

end

/-! ### Both together -/

/-- **Bulk sessions decode every stream.** Fed byte by byte, a fresh session serves the items the
stream is cut into, answers with an exit where an item is one, and is idle when no request is in
progress. Run on what is typed, it serves the items up to the first exit and leaves the rest. -/
theorem session_reads_items {m : Type → Type} [Monad m] [LawfulMonad m] [Stalls m]
    [LawfulStalls m] [MonadExceptOf Stop m] (layout : Layout) (bus : Handler Bus m) :
    (∀ stream : Bytes, ∃ (cut : Cut Item.encode) (session : Session),
      (∀ other : Cut Item.encode, other.stream = stream ↔ other = cut) ∧
      (session.isIdle = true ↔ cut.rest = []) ∧
      ∀ desk : Desk,
        ((Session.start layout).feedAll stream).handle (Desk.console layout bus) desk =
          ((layout.lower (serveCut cut)).handle bus >>= fun replies =>
            pure ((flowsCut cut, session), desk.display replies))) ∧
    ∀ (items : List Item) (rest : Bytes) (patience : Nat) (desk : Desk), Item.exit ∉ items →
      (items.flatMap Item.encode).length < patience →
      desk.terminal.typed = items.flatMap Item.encode ++ '\r'.toUInt8 :: rest →
      ((Session.start layout).serve patience).handle (Desk.console layout bus) desk =
        ((layout.lower (serveAll items)).handle bus >>= fun replies =>
          pure ((), (desk.withTyped rest).display replies)) := by
  constructor
  · intro stream
    obtain ⟨cut, after, flows, effect, hstream, hafter, hflows, hsends, heffect⟩ :=
      feedAll_awaits (layout.paging = .banked) .idle stream
    -- A session that starts awaits nothing, so what is done for the stream is what the cut says.
    obtain rfl : flowsCut cut = flows := hflows
    obtain rfl : effect = serveCut cut := heffect
    refine ⟨cut, ⟨after, layout.paging = .banked⟩, ?_, ?_, ?_⟩
    · intro other
      constructor
      · exact fun hother => prefixCode.cut_eq (hother.trans hstream.symm)
      · exact fun hother => hother ▸ hstream
    · rw [← hafter.eq_idle_iff, Session.isIdle, decide_eq_true_iff]
    · intro desk
      have hfeed := hsends m layout bus desk
      rw [Session.start, hfeed, Layout.lower_bind, Program.handle_bind, bind_assoc]
      simp only [Layout.lower_pure, Program.handle_pure, pure_bind]
  · intro items rest patience desk hexit hpatience htyped
    obtain ⟨effect, heffect, hrun⟩ := serve_awaits layout bus (layout.paging = .banked) .idle hexit
      (List.nil_append _).symm hpatience rest
    -- No part of a request came before, so the items are all that is served.
    obtain rfl : effect = serveAll items := heffect
    exact hrun desk htyped

/-- Opcodes and exits inside a field, a block across the end of the window, and a byte behind the
exit. -/
theorem session_reads_items_chip :
    let items : List Item :=
      [.writeWord 0xfffe 0x0d52570d, .filler 0x20 (by decide), .readBlock 0xfffe 5]
    let desk : Desk :=
      { terminal := { typed := items.flatMap Item.encode ++ '\r'.toUInt8 :: [0x72] } }
    ((Session.start Layout.banked).serve 30).handle (Desk.console Layout.banked Sim.Chip.bus) desk =
      ((Layout.banked.lower (serveAll items)).handle Sim.Chip.bus >>= fun replies =>
        pure ((), (desk.withTyped [0x72]).display replies)) := by
  intro items desk
  have hexit : Item.exit ∉ items := by simp [items]
  have hpatience : (items.flatMap Item.encode).length < 30 := by decide
  exact (session_reads_items Layout.banked Sim.Chip.bus).2 items [0x72] 30 desk hexit hpatience rfl

end DebugMonitor.Bulk
