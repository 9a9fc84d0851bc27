import DebugMonitor.Console.Basic
import Mathlib.Data.List.Flatten

/-!
# Newlines on the wire

A terminal gets a carriage return in front of every line feed, whatever the text is like. The text
may have carriage returns of its own, in front of line feeds and elsewhere, so a line feed on the
wire can follow a whole run of them; but the last of that run is always the one that was sent for
it, and taking that one away leaves the text as it was (`dropReturns_expandNewlines`).

The translation looks at single bytes and at nothing around them, so a text may come in any pieces:
what is sent is the same as if it came at once. `say_texts` says all of this of the console, and
that a text can be told from what was sent for it.
-/

namespace DebugMonitor

namespace Text

/-! ### Line feeds in UTF-8

No other character has a line feed among its bytes, since the bytes of characters outside ASCII are
128 and more. -/

/-- No other character has a line feed in its encoding. -/
theorem lineFeed_not_mem_utf8EncodeChar {c : Char} (h : c ≠ '\n') :
    lineFeed ∉ String.utf8EncodeChar c := by
  have hother : ∀ n : Nat, n < 256 → n ≠ 10 → lineFeed ≠ UInt8.ofNat n := by
    intro n hn hne heq
    have hnat : 10 = n % 256 := congrArg UInt8.toNat heq
    omega
  have hcode : c.val.toNat ≠ 10 := by
    intro hcode
    apply h
    exact Char.toNat_inj.mp hcode
  -- A character is its only byte, or it has from two to four.
  fun_cases String.utf8EncodeChar c
  all_goals
    simp only [List.mem_cons, List.not_mem_nil, or_false, not_or]
    and_intros
  all_goals exact hother _ (by omega) (by omega)

/-- A text has as many newlines as its encoding has line feeds. -/
theorem count_lineFeed_utf8 (text : Text) : text.utf8.count lineFeed = text.count '\n' := by
  induction text with
  | nil => rfl
  | cons c rest ih =>
    have hsplit : utf8 (c :: rest) = String.utf8EncodeChar c ++ utf8 rest := List.flatMap_cons
    rw [hsplit, List.count_append, ih]
    by_cases h : c = '\n'
    · subst h
      rw [List.count_cons_self, Nat.add_comm]
      rfl
    · rw [List.count_eq_zero_of_not_mem (lineFeed_not_mem_utf8EncodeChar h),
        List.count_cons_of_ne h, Nat.zero_add]

theorem lineFeed_mem_utf8_iff {text : Text} : lineFeed ∈ text.utf8 ↔ '\n' ∈ text := by
  rw [← List.count_pos_iff, count_lineFeed_utf8, List.count_pos_iff]

/-- A text is what its bytes decode to. -/
theorem utf8_injective : Function.Injective utf8 := by
  intro s t h
  have hbytes : (String.ofList s).toByteArray = (String.ofList t).toByteArray :=
    congrArg List.toByteArray h
  exact String.ofList_injective (String.toByteArray_inj.mp hbytes)

/-! ### There and back -/

theorem expandNewlines_lineFeed (rest : Bytes) :
    expandNewlines (lineFeed :: rest) = carriageReturn :: lineFeed :: expandNewlines rest := rfl

theorem expandNewlines_cons {b : UInt8} (h : b ≠ lineFeed) (rest : Bytes) :
    expandNewlines (b :: rest) = b :: expandNewlines rest := by
  rw [expandNewlines, List.flatMap_cons, if_neg h]
  rfl

/-- Where there is no line feed, nothing is put in. -/
theorem expandNewlines_eq_self {bytes : Bytes} (h : lineFeed ∉ bytes) :
    expandNewlines bytes = bytes := by
  induction bytes with
  | nil => rfl
  | cons b rest ih =>
    rw [List.mem_cons, not_or] at h
    obtain ⟨hb, hrest⟩ := h
    rw [expandNewlines_cons (Ne.symm hb), ih hrest]

/-- Where there is no newline before, only the end of the line is expanded. -/
theorem wire_line {text : Text} (h : '\n' ∉ text) :
    wire (text ++ "\n") = text.utf8 ++ [0x0d, 0x0a] := by
  have hbytes : lineFeed ∉ text.utf8 := fun hmem => h (lineFeed_mem_utf8_iff.mp hmem)
  rw [wire_append, wire, expandNewlines_eq_self hbytes]
  rfl

/-- Takes one carriage return away in front of every line feed. -/
def dropReturns : Bytes → Bytes
  | [] => []
  | b :: rest =>
    if b = carriageReturn ∧ rest.head? = some lineFeed then dropReturns rest
    else b :: dropReturns rest

/-- Nothing that is sent starts with a line feed. -/
theorem head?_expandNewlines (bytes : Bytes) : (expandNewlines bytes).head? ≠ some lineFeed := by
  cases bytes with
  | nil => nofun
  | cons b rest =>
    by_cases h : b = lineFeed
    · subst h
      rw [expandNewlines_lineFeed, List.head?_cons]
      decide
    · rw [expandNewlines_cons h, List.head?_cons]
      simpa using h

/-- **What was sent for line feeds can be taken away again,** and nothing else is. -/
theorem dropReturns_expandNewlines (bytes : Bytes) :
    dropReturns (expandNewlines bytes) = bytes := by
  induction bytes with
  | nil => rfl
  | cons b rest ih =>
    by_cases h : b = lineFeed
    · subst h
      have hkept : ¬ (lineFeed = carriageReturn ∧ (expandNewlines rest).head? = some lineFeed) :=
        fun hreturn => absurd hreturn.1 (by decide)
      rw [expandNewlines_lineFeed, dropReturns, if_pos ⟨rfl, rfl⟩, dropReturns, if_neg hkept, ih]
    · -- A carriage return of the text itself is not in front of a line feed on the wire.
      rw [expandNewlines_cons h, dropReturns, if_neg fun hreturn =>
        head?_expandNewlines rest hreturn.2, ih]

/-- No two texts look the same on the wire. -/
theorem expandNewlines_injective : Function.Injective expandNewlines :=
  Function.LeftInverse.injective dropReturns_expandNewlines

/-- Every line feed costs one more byte. -/
theorem length_expandNewlines (bytes : Bytes) :
    (expandNewlines bytes).length = bytes.length + bytes.count lineFeed := by
  induction bytes with
  | nil => rfl
  | cons b rest ih =>
    by_cases h : b = lineFeed
    · subst h
      rw [expandNewlines_lineFeed, List.count_cons_self]
      simp only [List.length_cons]
      omega
    · rw [expandNewlines_cons h, List.count_cons_of_ne h]
      simp only [List.length_cons]
      omega

/-- A line feed on the wire was sent for one in the text, with a carriage return just before it and
everything else where it belongs. -/
theorem exists_lineFeed_of_expandNewlines {bytes before after : Bytes}
    (h : expandNewlines bytes = before ++ lineFeed :: after) :
    ∃ front rest, bytes = front ++ lineFeed :: rest ∧
      before = expandNewlines front ++ [carriageReturn] ∧ after = expandNewlines rest := by
  induction bytes generalizing before with
  | nil => exact absurd h.symm (List.append_ne_nil_of_right_ne_nil _ (List.cons_ne_nil _ _))
  | cons b bytes ih =>
    by_cases hfeed : b = lineFeed
    · subst hfeed
      rw [expandNewlines_lineFeed] at h
      -- The line feed is the one that was just sent, or comes later.
      rcases before with _ | ⟨first, _ | ⟨second, before⟩⟩
      · exact absurd (List.head_eq_of_cons_eq h) (by decide)
      · obtain ⟨rfl, hrest⟩ := List.cons_eq_cons.mp h
        exact ⟨[], bytes, rfl, rfl, (List.tail_eq_of_cons_eq hrest).symm⟩
      · obtain ⟨rfl, hrest⟩ := List.cons_eq_cons.mp h
        obtain ⟨rfl, hlater⟩ := List.cons_eq_cons.mp hrest
        obtain ⟨front, rest, rfl, rfl, rfl⟩ := ih hlater
        exact ⟨lineFeed :: front, rest, rfl, rfl, rfl⟩
    · rw [expandNewlines_cons hfeed] at h
      rcases before with _ | ⟨first, before⟩
      · exact absurd (List.head_eq_of_cons_eq h) hfeed
      · obtain ⟨rfl, hlater⟩ := List.cons_eq_cons.mp h
        obtain ⟨front, rest, rfl, rfl, rfl⟩ := ih hlater
        refine ⟨b :: front, rest, rfl, ?_, rfl⟩
        rw [expandNewlines_cons hfeed]
        rfl

/-- Carriage returns of the text are kept, those in front of a line feed as well. -/
example : wire "\r\r\n\n" = [0x0d, 0x0d, 0x0d, 0x0a, 0x0d, 0x0a] ∧
    dropReturns (wire "\r\r\n\n") = [0x0d, 0x0d, 0x0a, 0x0a] := by
  decide

end Text

/-! ### Sending -/

namespace Console

theorem sendAll_append (s t : Bytes) :
    sendAll (s ++ t) = (sendAll s >>= fun _ => sendAll t) := by
  induction s with
  | nil => rfl
  | cons b rest ih =>
    rw [List.cons_append, sendAll, sendAll, ih, bind_assoc]

/-- Different bytes make different requests. -/
theorem sendAll_injective : Function.Injective sendAll := by
  intro s
  induction s with
  | nil =>
    intro t h
    cases t with
    | nil => rfl
    | cons c rest => cases h
  | cons b s ih =>
    intro t h
    cases t with
    | nil => cases h
    | cons c t =>
      have hcall : (Program.call (I := Console) (.serial (.send b)) fun _ => sendAll s) =
          Program.call (I := Console) (.serial (.send c)) fun _ => sendAll t := h
      -- Equal programs ask the same first, and go on alike for its only answer.
      injection hcall with hrequest hnext
      obtain rfl : b = c := by simpa using hrequest
      rw [ih (congrFun hnext ())]

/-- Texts that are said one after the other are said at once. -/
theorem say_flatten (texts : List Text) : forM texts say = say texts.flatten := by
  induction texts with
  | nil => rfl
  | cons text rest ih =>
    rw [List.forM_cons, ih, List.flatten_cons]
    show _ = sendAll (Text.wire (text ++ rest.flatten))
    rw [Text.wire_append, sendAll_append]
    rfl

/-- **What is sent for texts, in any pieces, is one translation of their characters, and it can be
undone.** Every line feed has its own carriage return in front, so as many bytes are sent as the
texts have in UTF-8 and line feeds besides. Without these carriage returns it is the texts again,
whatever carriage returns they have, and no other text is sent in the same way. -/
theorem say_texts (texts : List Text) :
    ∃ bytes : Bytes, forM texts say = sendAll bytes ∧ say texts.flatten = sendAll bytes ∧
      (∀ before after, bytes = before ++ Text.lineFeed :: after →
        ∃ front rest, Text.utf8 texts.flatten = front ++ Text.lineFeed :: rest ∧
          before = Text.expandNewlines front ++ [Text.carriageReturn] ∧
          after = Text.expandNewlines rest) ∧
      bytes.length = (Text.utf8 texts.flatten).length + texts.flatten.count '\n' ∧
      Text.dropReturns bytes = Text.utf8 texts.flatten ∧
      ∀ others : List Text, forM others say = sendAll bytes ↔ others.flatten = texts.flatten := by
  refine ⟨Text.wire texts.flatten, say_flatten texts, rfl, ?_, ?_, ?_, ?_⟩
  · intro before after h
    exact Text.exists_lineFeed_of_expandNewlines h
  · rw [Text.wire, Text.length_expandNewlines, Text.count_lineFeed_utf8]
  · exact Text.dropReturns_expandNewlines _
  · intro others
    rw [say_flatten, say, sendAll_injective.eq_iff]
    constructor
    · intro hwire
      apply Text.utf8_injective
      apply Text.expandNewlines_injective
      exact hwire
    · intro hflatten
      rw [hflatten]

/-- A piece that ends in a carriage return, before one that starts with a line feed. -/
theorem say_texts_parted :
    forM [("a\r" : Text), "\nb"] say = sendAll [0x61, 0x0d, 0x0d, 0x0a, 0x62] ∧
      ∃ front rest, Text.utf8 "a\r\nb" = front ++ Text.lineFeed :: rest ∧
        [0x61, 0x0d, 0x0d] = Text.expandNewlines front ++ [Text.carriageReturn] ∧
        [0x62] = Text.expandNewlines rest := by
  obtain ⟨bytes, hpieces, hwhole, hfeeds, -⟩ := say_texts ["a\r", "\nb"]
  obtain rfl : [0x61, 0x0d, 0x0d, 0x0a, 0x62] = bytes := sendAll_injective hwhole
  exact ⟨hpieces, hfeeds [0x61, 0x0d, 0x0d] [0x62] rfl⟩

end Console

end DebugMonitor
