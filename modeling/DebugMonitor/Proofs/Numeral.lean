import DebugMonitor.Numeral
import DebugMonitor.Proofs.Console.Tokens
import Mathlib.Data.Nat.Digits.Lemmas

/-!
# Numerals are read back

What is written is the digits of a number, and reading them again is Horner's rule, so a number
that is written in no more digits than are read is read back (`parse_hex`). Zeros in front change
nothing, and neither does the marker.

A text that is read as a number consists of digits and perhaps a marker. No separator is among them,
so it is one word wherever it stands in a line (`isWord_of_parse`).
-/

namespace DebugMonitor

/-- Where every character is ASCII, the length in UTF-8 is the number of characters. -/
theorem Text.size_eq_length {text : Text} (h : ∀ c ∈ text, c.utf8Size = 1) :
    text.size = text.length := by
  induction text with
  | nil => rfl
  | cons c rest ih =>
    rw [List.forall_mem_cons] at h
    obtain ⟨hc, hrest⟩ := h
    have hfirst : (String.utf8EncodeChar c).length = 1 :=
      (String.length_utf8EncodeChar c).trans hc
    have hsplit : size (c :: rest) = (String.utf8EncodeChar c).length + size rest :=
      List.length_append
    rw [hsplit, hfirst, ih hrest, List.length_cons, Nat.add_comm]

namespace Numeral

/-! ### Digits -/

/-- The significant digits are the digits of the library, read from the other end. -/
theorem significant_eq_reverse_digits {base : Nat} (hbase : 1 < base) (value : Nat) :
    significant base value = (Nat.digits base value).reverse := by
  induction value using Nat.strong_induction_on with
  | h value ih =>
    unfold significant
    by_cases hzero : value = 0
    · simp [hzero]
    · have hpos : 0 < value := Nat.pos_of_ne_zero hzero
      have hstop : ¬ (value = 0 ∨ base < 2) := by omega
      rw [dif_neg hstop, ih _ (Nat.div_lt_self hpos hbase), Nat.digits_def' hbase hpos]
      simp

theorem hexDigit?_digitChar {digit : Nat} (h : digit < 16) :
    hexDigit? (Nat.digitChar digit) = some digit := by
  have hall : ∀ digit ∈ List.range 16, hexDigit? (Nat.digitChar digit) = some digit := by decide
  exact hall digit (List.mem_range.mpr h)

theorem utf8Size_digitChar {digit : Nat} (h : digit < 16) :
    (Nat.digitChar digit).utf8Size = 1 := by
  have hall : ∀ digit ∈ List.range 16, (Nat.digitChar digit).utf8Size = 1 := by decide
  exact hall digit (List.mem_range.mpr h)

/-- Reading digits is Horner's rule: what was read before has the highest weight. -/
theorem readDigits_of_map {text : Text} {digits : List Nat}
    (h : text.map hexDigit? = digits.map some) (value : Nat) :
    readDigits value text = .ok (Nat.ofDigits 16 (digits.reverse ++ [value])) := by
  induction text generalizing digits value with
  | nil =>
    obtain rfl : digits = [] := by simpa using h.symm
    show Except.ok value = _
    simp
  | cons c text ih =>
    cases digits with
    | nil => cases h
    | cons digit rest =>
      obtain ⟨hfirst, hrest⟩ := List.cons.inj h
      rw [readDigits, hfirst]
      show readDigits (16 * value + digit) text = _
      rw [ih hrest]
      simp [Nat.ofDigits_append, Nat.ofDigits_cons, Nat.add_comm]

/-- Written digits are read back, in their order. -/
theorem readDigits_digitChar {digits : List Nat} (h : ∀ digit ∈ digits, digit < 16) (value : Nat) :
    readDigits value (digits.map Nat.digitChar) =
      .ok (Nat.ofDigits 16 (digits.reverse ++ [value])) := by
  apply readDigits_of_map
  rw [List.map_map]
  exact List.map_congr_left fun digit hdigit => hexDigit?_digitChar (h digit hdigit)

/-! ### Writing and reading back -/

/-- The digits that are written, and the zeros in front of them. -/
def written (base minDigits value : Nat) : List Nat :=
  List.replicate (max 1 minDigits - (Nat.digits base value).length) 0 ++
    (Nat.digits base value).reverse

theorem padded_eq_map {base : Nat} (hbase : 1 < base) (minDigits value : Nat) :
    padded base minDigits value = (written base minDigits value).map Nat.digitChar := by
  rw [padded, significant_eq_reverse_digits hbase, written]
  simp

theorem lt_of_mem_written {base : Nat} (hbase : 1 < base) {minDigits value digit : Nat}
    (h : digit ∈ written base minDigits value) : digit < base := by
  rw [written, List.mem_append, List.mem_replicate, List.mem_reverse] at h
  rcases h with ⟨-, rfl⟩ | hdigit
  · omega
  · exact Nat.digits_lt_base hbase hdigit

/-- Zeros in front of a number are no part of it. -/
theorem ofDigits_written (base minDigits value : Nat) :
    Nat.ofDigits base ((written base minDigits value).reverse ++ [0]) = value := by
  rw [written, List.reverse_append, List.reverse_reverse, List.reverse_replicate]
  simp [Nat.ofDigits_append, Nat.ofDigits_replicate_zero, Nat.ofDigits_digits]

theorem length_written (base minDigits value : Nat) :
    (written base minDigits value).length =
      max (max 1 minDigits) (Nat.digits base value).length := by
  rw [written, List.length_append, List.length_replicate, List.length_reverse]
  omega

theorem length_digits_le (value : UInt32) : (Nat.digits 16 value.toNat).length ≤ 8 := by
  rw [Nat.digits_length_le_iff (by omega)]
  exact value.toNat_lt

/-- **A number that is written is read back,** unless it is padded to more digits than are read. -/
theorem parse_hex (value : UInt32) {minDigits : Nat} (h : minDigits ≤ maxDigits) :
    parse (hex value minDigits) = .ok value := by
  have hbase : 1 < 16 := by omega
  have hpadded := padded_eq_map hbase minDigits value.toNat
  have hdigit : ∀ digit ∈ written 16 minDigits value.toNat, digit < 16 :=
    fun digit => lt_of_mem_written hbase
  have hlength := length_written 16 minDigits value.toNat
  have hfits := length_digits_le value
  have hmax : maxDigits = 8 := rfl
  -- Every digit is one byte, so the limit on bytes is one on digits.
  have hsize : (padded 16 minDigits value.toNat).size =
      (written 16 minDigits value.toNat).length := by
    rw [hpadded, Text.size_eq_length, List.length_map]
    intro c hc
    obtain ⟨digit, hmem, rfl⟩ := List.mem_map.mp hc
    exact utf8Size_digitChar (hdigit digit hmem)
  have hread : readDigits 0 (padded 16 minDigits value.toNat) = .ok value.toNat := by
    rw [hpadded, readDigits_digitChar hdigit, ofDigits_written]
  -- So none of the errors applies.
  have hshort : ¬ maxDigits < (padded 16 minDigits value.toNat).size := by omega
  have hsome : (padded 16 minDigits value.toNat).isEmpty = false := by
    rw [hpadded, List.isEmpty_eq_false_iff, ← List.length_pos_iff, List.length_map]
    omega
  have hstrip : stripMarker (hex value minDigits) = padded 16 minDigits value.toNat := rfl
  rw [parse, hstrip]
  simp only [if_neg hshort, hsome, hread]
  exact congrArg Except.ok UInt32.ofNat_toNat

/-! ### What is read as a number -/

theorem isTokenChar_of_hexDigit? {c : Char} {digit : Nat} (h : hexDigit? c = some digit) :
    Console.isTokenChar c = true := by
  have hblank : hexDigit? ' ' = none := by decide
  have htab : hexDigit? '\t' = none := by decide
  have hne : c ≠ ' ' ∧ c ≠ '\t' := by
    constructor
    · rintro rfl
      rw [hblank] at h
      cases h
    · rintro rfl
      rw [htab] at h
      cases h
  simp [Console.isTokenChar, Console.isSeparator, hne]

theorem isTokenChar_of_readDigits {digits : Text} {value found : Nat}
    (h : readDigits value digits = .ok found) : ∀ c ∈ digits, Console.isTokenChar c = true := by
  induction digits generalizing value with
  | nil =>
    intro c hc
    cases hc
  | cons first rest ih =>
    rw [readDigits] at h
    cases hdigit : hexDigit? first with
    | none =>
      rw [hdigit] at h
      cases h
    | some digit =>
      rw [hdigit] at h
      exact List.forall_mem_cons.mpr ⟨isTokenChar_of_hexDigit? hdigit, ih h⟩

/-- A marker, if there is one, stands in front of what is left without it. -/
theorem eq_stripMarker (text : Text) :
    ∃ marker : Text, text = marker ++ stripMarker text ∧
      ∀ c ∈ marker, Console.isTokenChar c = true := by
  fun_cases stripMarker text with
  | case1 digits => exact ⟨['0', 'x'], rfl, List.all_eq_true.mp (by decide)⟩
  | case2 digits => exact ⟨['0', 'X'], rfl, List.all_eq_true.mp (by decide)⟩
  | case3 => exact ⟨[], rfl, List.forall_mem_nil _⟩

/-- A numeral is one word, so blanks do not cut it. -/
theorem isWord_of_parse {text : Text} {value : UInt32} (h : parse text = .ok value) :
    Console.IsWord text := by
  obtain ⟨marker, htext, hmarker⟩ := eq_stripMarker text
  rw [parse] at h
  split at h
  · cases h
  split at h
  · cases h
  · next hsome =>
    -- What was read consists of digits, and no digit is a blank.
    have hdigits : ∀ c ∈ stripMarker text, Console.isTokenChar c = true := by
      cases hread : readDigits 0 (stripMarker text) with
      | error malformed =>
        rw [hread] at h
        cases h
      | ok found => exact isTokenChar_of_readDigits hread
    constructor
    · rintro rfl
      exact hsome rfl
    · rw [htext]
      exact List.forall_mem_append.mpr ⟨hmarker, hdigits⟩

end Numeral

end DebugMonitor
