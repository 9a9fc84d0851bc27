import DebugMonitor.Proofs.Numeral.Grammar
import Mathlib.Data.Char

/-!
# One numeral for a number

How a number is written depends on the number, the base and the width asked for, and on nothing
else. `Canonical` says what a numeral is like: lower-case digits of the base, with the number as
their positional value, as many as the width and the number need. Zeros come first only where the
width is greater than the number needs.

Hexadecimal and decimal numerals are both of this kind (`written_canonical`). So a number can be
told from its numeral, and numerals of one length are in the order of their numbers, which is what
columns of addresses are sorted by.
-/

namespace DebugMonitor.Numeral

/-! ### Numerals in any base -/

/-- The digits of a base, in the order of their values. -/
def lowerDigits (base : Nat) : Text := ("0123456789abcdef" : Text).take base

/-- The value of digits in a base, of which the last one counts ones. -/
def valueIn (base : Nat) (digits : Text) : Nat :=
  Nat.ofDigits base (digits.map digitValue).reverse

/-- The numeral of a value in a base, in no fewer digits than were asked for. -/
structure Canonical (base minDigits value : Nat) (digits : Text) : Prop where
  mem_digits : ∀ c ∈ digits, c ∈ lowerDigits base
  valueIn_eq : valueIn base digits = value
  length_eq : digits.length = max 1 (max minDigits (Nat.digits base value).length)
  zero_iff : digits.head? = some '0' ↔ (Nat.digits base value).length < digits.length

/-! ### Single digits

There are few enough digits to look at all of them. -/

theorem lowerDigits_eq {base : Nat} (h : base ≤ 16) :
    lowerDigits base = (List.range base).map Nat.digitChar := by
  have hall : ("0123456789abcdef" : Text) = (List.range 16).map Nat.digitChar := by decide
  rw [lowerDigits, hall, ← List.map_take, List.take_range, Nat.min_eq_left h]

/-- The digits of a base are the characters of its numbers. -/
theorem mem_lowerDigits_iff {base : Nat} (hbase : base ≤ 16) {c : Char} :
    c ∈ lowerDigits base ↔ ∃ digit < base, Nat.digitChar digit = c := by
  simp only [lowerDigits_eq hbase, List.mem_map, List.mem_range]

/-- The value of a digit is the number it was written for. -/
theorem digitValue_digitChar {digit : Nat} (h : digit < 16) :
    digitValue (Nat.digitChar digit) = digit := by
  have hall : ∀ digit < 16, digitValue (Nat.digitChar digit) = digit := by decide +kernel
  exact hall digit h

theorem digitChar_eq_zero_iff {digit : Nat} (h : digit < 16) :
    Nat.digitChar digit = '0' ↔ digit = 0 := by
  have hall : ∀ digit < 16, Nat.digitChar digit = '0' ↔ digit = 0 := by decide
  exact hall digit h

/-- Characters are in the order of the digits that they are. -/
theorem digitChar_lt_digitChar_iff {m n : Nat} (hm : m < 16) (hn : n < 16) :
    Nat.digitChar m < Nat.digitChar n ↔ m < n := by
  have hall : ∀ m < 16, ∀ n < 16, Nat.digitChar m < Nat.digitChar n ↔ m < n := by decide +kernel
  exact hall m hm n hn

theorem digitValue_lt_base {base : Nat} (hbase : base ≤ 16) {c : Char} (h : c ∈ lowerDigits base) :
    digitValue c < base := by
  obtain ⟨digit, hdigit, rfl⟩ := (mem_lowerDigits_iff hbase).mp h
  rwa [digitValue_digitChar (Nat.lt_of_lt_of_le hdigit hbase)]

/-- Digits stand in the order of their values. -/
theorem digitValue_lt_digitValue_iff {base : Nat} (hbase : base ≤ 16) {c d : Char}
    (hc : c ∈ lowerDigits base) (hd : d ∈ lowerDigits base) :
    digitValue c < digitValue d ↔ c < d := by
  obtain ⟨m, hm, rfl⟩ := (mem_lowerDigits_iff hbase).mp hc
  obtain ⟨n, hn, rfl⟩ := (mem_lowerDigits_iff hbase).mp hd
  have hleft : m < 16 := Nat.lt_of_lt_of_le hm hbase
  have hright : n < 16 := Nat.lt_of_lt_of_le hn hbase
  rw [digitValue_digitChar hleft, digitValue_digitChar hright,
    digitChar_lt_digitChar_iff hleft hright]

/-! ### What is written -/

theorem head?_written (base minDigits value : Nat) :
    (written base minDigits value).head? = some 0 ↔
      (Nat.digits base value).length < max 1 minDigits := by
  by_cases hpad : (Nat.digits base value).length < max 1 minDigits
  · -- There is a zero in front that is no digit of the number.
    obtain ⟨count, hcount⟩ := Nat.exists_eq_add_of_lt hpad
    have hzeros : max 1 minDigits - (Nat.digits base value).length = count + 1 := by omega
    rw [written, hzeros, List.replicate_succ]
    exact iff_of_true rfl hpad
  · have hzeros : max 1 minDigits - (Nat.digits base value).length = 0 := by omega
    have hvalue : value ≠ 0 := by
      rintro rfl
      rw [Nat.digits_zero, List.length_nil] at hpad
      omega
    have hne : Nat.digits base value ≠ [] := Nat.digits_ne_nil_iff_ne_zero.mpr hvalue
    -- The digit in front is the last one of the library, which is not zero.
    have hlast := Nat.getLast_digit_ne_zero base hvalue
    rw [written, hzeros, List.replicate_zero, List.nil_append, List.head?_reverse,
      List.getLast?_eq_some_getLast hne]
    refine iff_of_false ?_ hpad
    intro hzero
    exact hlast (Option.some.inj hzero)

theorem valueIn_map_digitChar {base : Nat} {digits : List Nat} (h : ∀ digit ∈ digits, digit < 16) :
    valueIn base (digits.map Nat.digitChar) = Nat.ofDigits base digits.reverse := by
  have hvalues : (digits.map Nat.digitChar).map digitValue = digits := by
    rw [List.map_map]
    calc digits.map (digitValue ∘ Nat.digitChar)
        = digits.map id := List.map_congr_left fun digit hmem => digitValue_digitChar (h digit hmem)
      _ = digits := List.map_id digits
  rw [valueIn, hvalues]

/-- What is written is the numeral. -/
theorem canonical_padded {base : Nat} (hbase : 1 < base) (hle : base ≤ 16)
    (minDigits value : Nat) : Canonical base minDigits value (padded base minDigits value) := by
  have hdigit : ∀ digit ∈ written base minDigits value, digit < base :=
    fun digit => lt_of_mem_written hbase
  have hsmall : ∀ digit ∈ written base minDigits value, digit < 16 :=
    fun digit hmem => Nat.lt_of_lt_of_le (hdigit digit hmem) hle
  have hlength := length_written base minDigits value
  have hhead := head?_written base minDigits value
  have hvalue := ofDigits_written base minDigits value
  rw [padded_eq_map hbase]
  constructor
  · intro c hc
    obtain ⟨digit, hmem, rfl⟩ := List.mem_map.mp hc
    exact (mem_lowerDigits_iff hle).mpr ⟨digit, hdigit digit hmem, rfl⟩
  · rw [valueIn_map_digitChar hsmall]
    simpa [Nat.ofDigits_append] using hvalue
  · rw [List.length_map, hlength]
    omega
  · rw [List.length_map, hlength, List.head?_map]
    cases hfirst : (written base minDigits value).head? with
    | none =>
      -- A numeral is not empty.
      rw [List.head?_eq_none_iff] at hfirst
      rw [hfirst, List.length_nil] at hlength
      omega
    | some digit =>
      have hmem := List.mem_of_mem_head? (Option.mem_def.mpr hfirst)
      rw [hfirst, Option.some.injEq] at hhead
      rw [Option.map_some, Option.some.injEq, digitChar_eq_zero_iff (hsmall digit hmem), hhead]
      omega

/-! ### Order -/

/-- A digit in front counts by its place. -/
theorem valueIn_cons (base : Nat) (c : Char) (digits : Text) :
    valueIn base (c :: digits) = valueIn base digits + base ^ digits.length * digitValue c := by
  rw [valueIn, List.map_cons, List.reverse_cons, Nat.ofDigits_append, List.length_reverse,
    List.length_map, Nat.ofDigits_singleton]
  rfl

/-- A numeral is worth less than the power of its length. -/
theorem valueIn_lt {base : Nat} (hbase : 1 < base) (hle : base ≤ 16) {digits : Text}
    (h : ∀ c ∈ digits, c ∈ lowerDigits base) : valueIn base digits < base ^ digits.length := by
  have hvalues : ∀ value ∈ (digits.map digitValue).reverse, value < base := by
    intro value hmem
    rw [List.mem_reverse] at hmem
    obtain ⟨c, hc, rfl⟩ := List.mem_map.mp hmem
    exact digitValue_lt_base hle (h c hc)
  have hlt := Nat.ofDigits_lt_base_pow_length hbase hvalues
  rwa [List.length_reverse, List.length_map] at hlt

/-- Texts of digits that are equally long are in the order of their values: the first digit that is
different decides. -/
theorem lt_iff_valueIn_lt {base : Nat} (hbase : 1 < base) (hle : base ≤ 16) {s t : Text}
    (hs : ∀ c ∈ s, c ∈ lowerDigits base) (ht : ∀ c ∈ t, c ∈ lowerDigits base)
    (hlength : s.length = t.length) : s < t ↔ valueIn base s < valueIn base t := by
  induction s generalizing t with
  | nil =>
    cases t with
    | nil => exact iff_of_false (List.not_lt_nil []) (Nat.lt_irrefl _)
    | cons d t => cases hlength
  | cons c s ih =>
    cases t with
    | nil => cases hlength
    | cons d t =>
      rw [List.forall_mem_cons] at hs ht
      obtain ⟨hc, hs⟩ := hs
      obtain ⟨hd, ht⟩ := ht
      have htail : s.length = t.length := Nat.succ.inj hlength
      have hfirst := digitValue_lt_digitValue_iff hle hc hd
      have hlast := digitValue_lt_digitValue_iff hle hd hc
      have hsmall := valueIn_lt hbase hle hs
      have hother := valueIn_lt hbase hle ht
      rw [List.cons_lt_cons_iff, valueIn_cons, valueIn_cons, htail]
      rw [htail] at hsmall
      -- The rest of a numeral is worth less than one in the first place.
      have hstep : ∀ m n : Nat, m < n →
          base ^ t.length * m + base ^ t.length ≤ base ^ t.length * n :=
        fun m n hmn => Nat.mul_le_mul_left (base ^ t.length) hmn
      rcases lt_trichotomy c d with hlt | rfl | hgt
      · have hweight := hstep _ _ (hfirst.mpr hlt)
        exact iff_of_true (.inl hlt) (by omega)
      · rw [Nat.add_lt_add_iff_right, ← ih hs ht htail]
        simp
      · have hweight := hstep _ _ (hlast.mpr hgt)
        refine iff_of_false ?_ (by omega)
        rintro (hlt | ⟨rfl, -⟩)
        · exact lt_asymm hgt hlt
        · exact lt_irrefl c hgt

/-- Numerals of one length are in the order of what they stand for, however they were padded. -/
theorem Canonical.lt_iff {base : Nat} (hbase : 1 < base) (hle : base ≤ 16)
    {minDigits value width other : Nat} {s t : Text} (hs : Canonical base minDigits value s)
    (ht : Canonical base width other t) (hlength : s.length = t.length) :
    s < t ↔ value < other := by
  rw [lt_iff_valueIn_lt hbase hle hs.mem_digits ht.mem_digits hlength, hs.valueIn_eq,
    ht.valueIn_eq]

/-! ### Both kinds of numerals -/

/-- Hexadecimal numerals are canonical behind their marker. -/
theorem canonical_hex (value : UInt32) (minDigits : Nat) :
    ∃ digits, hex value minDigits = '0' :: 'x' :: digits ∧
      Canonical 16 minDigits value.toNat digits :=
  ⟨_, rfl, canonical_padded (by omega) (by omega) minDigits value.toNat⟩

theorem canonical_decimal (value : UInt32) (minDigits : Nat) :
    Canonical 10 minDigits value.toNat (decimal value minDigits) :=
  canonical_padded (by omega) (by omega) minDigits value.toNat

/-- **Numerals are canonical.** A number is written in the digits of the base, with itself as their
value, and in as many as it needs, or more if more were asked for. So no two numbers are written
alike, and numerals of the same length can be compared as texts. -/
theorem written_canonical :
    (∀ (value : UInt32) (minDigits : Nat), ∃ digits,
      hex value minDigits = '0' :: 'x' :: digits ∧ Canonical 16 minDigits value.toNat digits) ∧
    (∀ (value : UInt32) (minDigits : Nat),
      Canonical 10 minDigits value.toNat (decimal value minDigits)) ∧
    (∀ minDigits : Nat, Function.Injective (fun value => hex value minDigits) ∧
      Function.Injective (fun value => decimal value minDigits)) ∧
    ∀ (value other : UInt32) (minDigits width : Nat),
      ((hex value minDigits).length = (hex other width).length →
        (hex value minDigits < hex other width ↔ value < other)) ∧
      ((decimal value minDigits).length = (decimal other width).length →
        (decimal value minDigits < decimal other width ↔ value < other)) := by
  refine ⟨canonical_hex, canonical_decimal, ?_, ?_⟩
  · intro minDigits
    constructor
    · intro value other h
      obtain ⟨digits, hvalue, hdigits⟩ := canonical_hex value minDigits
      obtain ⟨others, hother, hothers⟩ := canonical_hex other minDigits
      change hex value minDigits = hex other minDigits at h
      -- Behind the same marker the same digits have the same value.
      obtain rfl : digits = others := by simpa [hvalue, hother] using h
      rw [← UInt32.toNat_inj, ← hdigits.valueIn_eq, hothers.valueIn_eq]
    · intro value other h
      have hvalue := (canonical_decimal value minDigits).valueIn_eq
      have hother := (canonical_decimal other minDigits).valueIn_eq
      change decimal value minDigits = decimal other minDigits at h
      rw [← UInt32.toNat_inj, ← hvalue, h, hother]
  · intro value other minDigits width
    constructor
    · intro hlength
      obtain ⟨digits, hvalue, hdigits⟩ := canonical_hex value minDigits
      obtain ⟨others, hother, hothers⟩ := canonical_hex other width
      rw [hvalue, hother] at hlength ⊢
      have htails : digits.length = others.length := by simpa using hlength
      -- The markers agree, and numerals of one length compare as their values.
      rw [List.cons_lt_cons_self, List.cons_lt_cons_self, UInt32.lt_iff_toNat_lt]
      exact hdigits.lt_iff (by omega) (by omega) hothers htails
    · intro hlength
      rw [UInt32.lt_iff_toNat_lt]
      exact (canonical_decimal value minDigits).lt_iff (by omega) (by omega)
        (canonical_decimal other width) hlength

/-- Where letters come into it, and where one numeral is padded and the other is not. -/
theorem written_canonical_padded :
    (hex 0x9f 4 < hex 0xa0a0 0 ↔ (0x9f : UInt32) < 0xa0a0) ∧
      (decimal 99 3 < decimal 100 0 ↔ (99 : UInt32) < 100) := by
  obtain ⟨-, -, -, horder⟩ := written_canonical
  have hhex : hex 0x9f 4 = ("0x009f" : Text) ∧ hex 0xa0a0 0 = ("0xa0a0" : Text) := by
    decide +kernel
  have hdecimal : decimal 99 3 = ("099" : Text) ∧ decimal 100 0 = ("100" : Text) := by
    decide +kernel
  constructor
  · apply (horder 0x9f 0xa0a0 4 0).1
    rw [hhex.1, hhex.2]
    decide
  · apply (horder 99 100 3 0).2
    rw [hdecimal.1, hdecimal.2]
    decide

end DebugMonitor.Numeral
