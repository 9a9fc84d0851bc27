import Mathlib.Data.List.Infix

/-!
# Streams of items without framing

A stream of items can be read without any marks between them if no item is the beginning of another.
Then it can be cut into items in one way only. That it can be cut at all, whatever it consists of,
takes more: a beginning must stay a beginning, or become an item, when any symbol is added to it.

The console's input is such a stream twice over. What is typed is cut into keystrokes, and in bulk
mode what the host sends is cut into requests.
-/

namespace DebugMonitor

variable {ι α : Type} {encode : ι → List α}

/-- The beginning of an item, but not all of it. -/
def Unfinished (encode : ι → List α) (start : List α) : Prop :=
  ∃ item, start <+: encode item ∧ start ≠ encode item

/-- Items that tell themselves where they end, and that any symbols make up. -/
structure PrefixCode (encode : ι → List α) : Prop where
  nil : Unfinished encode []
  prefixFree : ∀ {item other}, encode item <+: encode other → item = other
  grows : ∀ {start}, Unfinished encode start → ∀ symbol,
    (∃ item, encode item = start ++ [symbol]) ∨ Unfinished encode (start ++ [symbol])

/-- A stream in pieces: items, and the beginning of one more. -/
structure Cut (encode : ι → List α) where
  items : List ι
  rest : List α
  unfinished : Unfinished encode rest

def Cut.stream (cut : Cut encode) : List α := cut.items.flatMap encode ++ cut.rest

namespace PrefixCode

/-- No beginning has an item in front. -/
theorem not_begins (h : PrefixCode encode) {start : List α} (hstart : Unfinished encode start)
    (item : ι) : ¬ encode item <+: start := by
  intro hbegins
  obtain ⟨whole, hwhole, hne⟩ := hstart
  obtain rfl := h.prefixFree (hbegins.trans hwhole)
  exact hne (hwhole.eq_of_length_le hbegins.length_le)

/-- Two streams of items that are equal start with the same item. -/
theorem eq_of_append_eq (h : PrefixCode encode) {item other : ι} {left right : List α}
    (heq : encode item ++ left = encode other ++ right) : item = other := by
  have hitem : encode item <+: encode other ++ right := ⟨left, heq⟩
  have hother : encode other <+: encode other ++ right := ⟨right, rfl⟩
  rcases List.prefix_or_prefix_of_prefix hitem hother with hbegins | hbegins
  · exact h.prefixFree hbegins
  · exact (h.prefixFree hbegins).symm

theorem not_unfinished_append (h : PrefixCode encode) {item : ι} {tail rest : List α}
    (hrest : Unfinished encode rest) : encode item ++ tail ≠ rest := by
  intro heq
  exact h.not_begins hrest item ⟨tail, heq⟩

/-- The items of equal streams are the same, and so is what is left over. -/
theorem items_eq (h : PrefixCode encode) {items others : List ι} {rest left : List α}
    (hrest : Unfinished encode rest) (hleft : Unfinished encode left)
    (heq : items.flatMap encode ++ rest = others.flatMap encode ++ left) :
    items = others ∧ rest = left := by
  induction items generalizing others with
  | nil =>
    cases others with
    | nil => exact ⟨rfl, heq⟩
    | cons other others =>
      rw [List.flatMap_cons, List.append_assoc] at heq
      exact absurd heq.symm (h.not_unfinished_append hrest)
  | cons item items ih =>
    rw [List.flatMap_cons, List.append_assoc] at heq
    cases others with
    | nil => exact absurd heq (h.not_unfinished_append hleft)
    | cons other others =>
      rw [List.flatMap_cons, List.append_assoc] at heq
      -- The first items are the same, and what is behind them are equal streams again.
      obtain rfl := h.eq_of_append_eq heq
      obtain ⟨rfl, rfl⟩ := ih (List.append_cancel_left heq)
      exact ⟨rfl, rfl⟩

/-- Nothing complete begins what is unfinished. -/
theorem items_eq_nil (h : PrefixCode encode) {items : List ι} {rest start : List α}
    (hrest : Unfinished encode rest) (hstart : Unfinished encode start)
    (heq : items.flatMap encode ++ rest = start) : items = [] := by
  have hcut : items.flatMap encode ++ rest = [].flatMap encode ++ start := heq
  exact (h.items_eq hrest hstart hcut).1

/-- The item that a symbol completes is the first one of the stream. -/
theorem exists_cons (h : PrefixCode encode) {item : ι} {items : List ι}
    {start rest stream : List α} {symbol : α} (hrest : Unfinished encode rest)
    (hitem : encode item = start ++ [symbol])
    (hstream : items.flatMap encode ++ rest = start ++ symbol :: stream) :
    ∃ later, items = item :: later ∧ later.flatMap encode ++ rest = stream := by
  rw [← List.singleton_append, ← List.append_assoc, ← hitem] at hstream
  cases items with
  | nil => exact absurd hstream.symm (h.not_unfinished_append hrest)
  | cons first later =>
    rw [List.flatMap_cons, List.append_assoc] at hstream
    obtain rfl := h.eq_of_append_eq hstream
    exact ⟨later, rfl, List.append_cancel_left hstream⟩

/-- A symbol that comes behind a beginning belongs to the first item of the stream. -/
theorem begins_cons (h : PrefixCode encode) {start stream : List α} {symbol : α}
    (hstart : Unfinished encode start) {items : List ι}
    (hstream : items.flatMap encode = start ++ symbol :: stream) :
    ∃ item ∈ items, start ++ [symbol] <+: encode item := by
  cases items with
  | nil => exact absurd hstream (List.append_ne_nil_of_right_ne_nil _ (List.cons_ne_nil _ _)).symm
  | cons item later =>
    refine ⟨item, List.mem_cons_self, ?_⟩
    have hgrown : start ++ [symbol] <+: (item :: later).flatMap encode :=
      ⟨stream, by rw [hstream, List.append_assoc, List.singleton_append]⟩
    rcases List.prefix_or_prefix_of_prefix hgrown (List.prefix_append _ _) with hbegins | hbegins
    · exact hbegins
    · -- Otherwise the item was complete before, or is now.
      rcases List.prefix_concat_iff.mp hbegins with hitem | hitem
      · rw [hitem]
      · exact absurd hitem (h.not_begins hstart item)

/-- Items that begin a stream are its first items. -/
theorem prefix_of_prefix_append (h : PrefixCode encode) {items others : List ι} {rest : List α}
    (hrest : Unfinished encode rest)
    (hbegins : items.flatMap encode <+: others.flatMap encode ++ rest) : items <+: others := by
  induction items generalizing others with
  | nil => exact List.nil_prefix
  | cons item items ih =>
    obtain ⟨tail, htail⟩ := hbegins
    rw [List.flatMap_cons, List.append_assoc] at htail
    cases others with
    | nil => exact absurd htail (h.not_unfinished_append hrest)
    | cons other others =>
      rw [List.flatMap_cons, List.append_assoc] at htail
      obtain rfl := h.eq_of_append_eq htail
      exact List.cons_prefix_cons.mpr ⟨rfl, ih ⟨tail, List.append_cancel_left htail⟩⟩

/-- Where one stream of items begins another, its items come first in the other. -/
theorem prefix_of_flatMap_prefix (h : PrefixCode encode) {items others : List ι}
    (hbegins : items.flatMap encode <+: others.flatMap encode) : items <+: others := by
  apply h.prefix_of_prefix_append h.nil
  rwa [List.append_nil]

/-- Where one stream begins another, its items come first in the other. -/
theorem items_prefix (h : PrefixCode encode) {cut other : Cut encode}
    (hbegins : cut.stream <+: other.stream) : cut.items <+: other.items :=
  h.prefix_of_prefix_append other.unfinished ((List.prefix_append _ cut.rest).trans hbegins)

/-- A stream has no two cuts. -/
theorem cut_eq (h : PrefixCode encode) {cut other : Cut encode}
    (heq : cut.stream = other.stream) : cut = other := by
  obtain ⟨items, rest, hrest⟩ := cut
  obtain ⟨others, left, hleft⟩ := other
  obtain ⟨rfl, rfl⟩ := h.items_eq hrest hleft heq
  rfl

/-- Every stream has a cut. -/
theorem exists_cut (h : PrefixCode encode) (stream : List α) :
    ∃ cut : Cut encode, cut.stream = stream := by
  induction stream using List.reverseRecOn with
  | nil => exact ⟨⟨[], [], h.nil⟩, rfl⟩
  | append_singleton stream symbol ih =>
    obtain ⟨⟨items, rest, hrest⟩, rfl⟩ := ih
    -- The new symbol belongs to what was left over, and may be the last one missing.
    rcases h.grows hrest symbol with ⟨item, hitem⟩ | hgrown
    · refine ⟨⟨items ++ [item], [], h.nil⟩, ?_⟩
      simp [Cut.stream, hitem]
    · refine ⟨⟨items, rest ++ [symbol], hgrown⟩, ?_⟩
      simp [Cut.stream]

/-- **Every stream can be cut, and in one way only.** -/
theorem exists_cut_iff (h : PrefixCode encode) (stream : List α) :
    ∃ cut : Cut encode, ∀ other : Cut encode, other.stream = stream ↔ other = cut := by
  obtain ⟨cut, rfl⟩ := h.exists_cut stream
  exact ⟨cut, fun other => ⟨h.cut_eq, congrArg Cut.stream⟩⟩

end PrefixCode

end DebugMonitor
