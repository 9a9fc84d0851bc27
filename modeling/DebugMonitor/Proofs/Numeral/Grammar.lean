import DebugMonitor.Proofs.Numeral

/-!
# What is a numeral

A text that is read as a number is one to eight hexadecimal digits, after at most one marker. This
grammar is written down here on its own: the digits are listed, their value is their place in the
list, and the value of a text is positional.

`parse_classifies` says that the reader accepts exactly this grammar, and for every other text which
fault it finds. The limit is the only one that counts bytes, and it comes first: a text of few
characters may be too long, and so may one without a single digit.

`parse_hex_inverse` compares the reader with the writer. A number is read back unless it was padded
too far, and a text that was read is written again, but for its marker and the case of its digits.
-/

namespace DebugMonitor.Numeral

/-! ### The grammar -/

/-- The characters that are digits. -/
def IsDigit (c : Char) : Prop := c ∈ ("0123456789abcdefABCDEF" : Text)

instance (c : Char) : Decidable (IsDigit c) := inferInstanceAs (Decidable (_ ∈ _))

def digitValue (c : Char) : Nat := ("0123456789abcdef" : Text).idxOf c.toLower

/-- The value of digits, of which the last one counts ones. -/
def positional (digits : Text) : Nat := Nat.ofDigits 16 (digits.map digitValue).reverse

structure IsNumeral (digits : Text) : Prop where
  isDigit : ∀ c ∈ digits, IsDigit c
  nonempty : 1 ≤ digits.length
  length_le : digits.length ≤ 8

instance (digits : Text) : Decidable (IsNumeral digits) :=
  decidable_of_iff (digits.all (IsDigit ·) ∧ 1 ≤ digits.length ∧ digits.length ≤ 8)
    ⟨fun h => ⟨fun c hc => of_decide_eq_true (List.all_eq_true.mp h.1 c hc), h.2.1, h.2.2⟩,
      fun h => ⟨List.all_eq_true.mpr fun c hc => decide_eq_true (h.1 c hc), h.2, h.3⟩⟩

/-- A text and what is left of it without its marker, if it has one. -/
inductive Unmarked : Text → Text → Prop where
  | lower (digits : Text) : Unmarked ('0' :: 'x' :: digits) digits
  | upper (digits : Text) : Unmarked ('0' :: 'X' :: digits) digits
  | bare {text : Text} (hlower : ∀ digits, text ≠ '0' :: 'x' :: digits)
      (hupper : ∀ digits, text ≠ '0' :: 'X' :: digits) : Unmarked text text

/-- A text has one reading without its marker. -/
theorem unmarked_iff {text digits : Text} : Unmarked text digits ↔ digits = stripMarker text := by
  constructor
  · intro h
    cases h with
    | lower => rfl
    | upper => rfl
    | bare hlower hupper => exact (stripMarker.eq_3 text hlower hupper).symm
  · rintro rfl
    fun_cases stripMarker text with
    | case1 digits => exact .lower digits
    | case2 digits => exact .upper digits
    | case3 text hlower hupper => exact .bare hlower hupper

/-! ### Digits -/

/-- There are few enough digits to look at all of them. -/
theorem IsDigit.of_all {c : Char} (h : IsDigit c) (p : Char → Prop) [DecidablePred p]
    (hall : ("0123456789abcdefABCDEF" : Text).all (p ·) = true) : p c :=
  of_decide_eq_true (List.all_eq_true.mp hall c h)

theorem hexDigit?_of_isDigit {c : Char} (h : IsDigit c) : hexDigit? c = some (digitValue c) :=
  h.of_all (fun c => hexDigit? c = some (digitValue c)) (by decide +kernel)

/-- Whatever has a value is a digit. -/
theorem isDigit_of_hexDigit? {c : Char} {digit : Nat} (h : hexDigit? c = some digit) :
    IsDigit c := by
  -- The ranges of digits are part of ASCII, which is small enough to look at every character.
  have hascii : c.toNat < 128 := by
    have hbound : ∀ last : Char, last.toNat < 128 → c ≤ last → c.toNat < 128 :=
      fun last hlast hle => Nat.lt_of_le_of_lt hle hlast
    unfold hexDigit? at h
    split at h
    next hrange => exact hbound '9' (by decide) hrange.2
    split at h
    next hrange => exact hbound 'f' (by decide) hrange.2
    split at h
    next hrange => exact hbound 'F' (by decide) hrange.2
    cases h
  have hall : ∀ code < 128,
      (hexDigit? (Char.ofNat code)).isSome → IsDigit (Char.ofNat code) := by
    decide +kernel
  have hdigit := hall c.toNat hascii
  rw [Char.ofNat_toNat, h] at hdigit
  exact hdigit rfl

theorem hexDigit?_of_not_isDigit {c : Char} (h : ¬ IsDigit c) : hexDigit? c = none := by
  cases hdigit : hexDigit? c with
  | none => rfl
  | some digit => exact absurd (isDigit_of_hexDigit? hdigit) h

theorem digitValue_lt {c : Char} (h : IsDigit c) : digitValue c < 16 :=
  h.of_all (digitValue · < 16) (by decide +kernel)

/-- A digit is written back in lower case. -/
theorem digitChar_digitValue {c : Char} (h : IsDigit c) :
    Nat.digitChar (digitValue c) = c.toLower :=
  h.of_all (fun c => Nat.digitChar (digitValue c) = c.toLower) (by decide +kernel)

theorem utf8Size_of_isDigit {c : Char} (h : IsDigit c) : c.utf8Size = 1 :=
  h.of_all (·.utf8Size = 1) (by decide +kernel)

/-! ### Reading -/

/-- Digits are read by their positions. -/
theorem readDigits_of_isDigit {digits : Text} (h : ∀ c ∈ digits, IsDigit c) :
    readDigits 0 digits = .ok (positional digits) := by
  have hmap : digits.map hexDigit? = (digits.map digitValue).map some := by
    rw [List.map_map]
    exact List.map_congr_left fun c hc => hexDigit?_of_isDigit (h c hc)
  rw [readDigits_of_map hmap, positional]
  simp [Nat.ofDigits_append]

/-- The first character that is no digit is the one that is reported. -/
theorem readDigits_of_not_isDigit {before after : Text} {c : Char}
    (hbefore : ∀ b ∈ before, IsDigit b) (hc : ¬ IsDigit c) (value : Nat) :
    readDigits value (before ++ c :: after) = .error (.invalidCharacter c) := by
  induction before generalizing value with
  | nil =>
    show readDigits value (c :: after) = _
    rw [readDigits, hexDigit?_of_not_isDigit hc]
  | cons first rest ih =>
    rw [List.forall_mem_cons] at hbefore
    obtain ⟨hfirst, hrest⟩ := hbefore
    rw [List.cons_append, readDigits, hexDigit?_of_isDigit hfirst]
    exact ih hrest _

/-- Eight digits are 32 bits, so none is lost. -/
theorem IsNumeral.positional_lt {digits : Text} (h : IsNumeral digits) :
    positional digits < 2 ^ 32 := by
  have hdigit : ∀ digit ∈ (digits.map digitValue).reverse, digit < 16 := by
    intro digit hmem
    rw [List.mem_reverse, List.mem_map] at hmem
    obtain ⟨c, hc, rfl⟩ := hmem
    exact digitValue_lt (h.isDigit c hc)
  have hlt := Nat.ofDigits_lt_base_pow_length (by omega : 1 < 16) hdigit
  rw [List.length_reverse, List.length_map] at hlt
  calc positional digits < 16 ^ digits.length := hlt
    _ ≤ 16 ^ 8 := Nat.pow_le_pow_right (by omega) h.length_le
    _ = 2 ^ 32 := by norm_num

theorem IsNumeral.size_eq {digits : Text} (h : IsNumeral digits) : digits.size = digits.length :=
  Text.size_eq_length fun c hc => utf8Size_of_isDigit (h.isDigit c hc)

/-- A character takes a byte at least. -/
theorem length_le_size (text : Text) : text.length ≤ text.size := by
  induction text with
  | nil => exact Nat.le_refl 0
  | cons c rest ih =>
    have hfirst : 0 < (String.utf8EncodeChar c).length := by
      rw [String.length_utf8EncodeChar]
      exact Char.utf8Size_pos c
    have hsplit : Text.size (c :: rest) = (String.utf8EncodeChar c).length + Text.size rest :=
      List.length_append
    rw [hsplit, List.length_cons]
    omega

/-- What the reader makes of a text, by what is left without the marker. -/
inductive Reading (digits : Text) : Except Malformed UInt32 → Prop where
  | tooLong (h : 8 < digits.size) : Reading digits (.error .tooLong)
  | empty (h : digits = []) : Reading digits (.error .empty)
  | invalidCharacter {c : Char} (hsize : digits.size ≤ 8)
      (h : digits.find? (¬ IsDigit ·) = some c) : Reading digits (.error (.invalidCharacter c))
  | number {value : UInt32} (h : IsNumeral digits) (hvalue : value.toNat = positional digits) :
      Reading digits (.ok value)

/-- Every text has one of these readings. -/
theorem exists_reading (digits : Text) : ∃ outcome, Reading digits outcome := by
  by_cases hlong : 8 < digits.size
  · exact ⟨_, .tooLong hlong⟩
  by_cases hempty : digits = []
  · exact ⟨_, .empty hempty⟩
  have hsize : digits.size ≤ 8 := Nat.le_of_not_lt hlong
  cases hother : digits.find? (¬ IsDigit ·) with
  | some c => exact ⟨_, .invalidCharacter hsize hother⟩
  | none =>
    have hnumeral : IsNumeral digits :=
      ⟨by simpa using hother, List.length_pos_of_ne_nil hempty, (length_le_size _).trans hsize⟩
    exact ⟨_, .number hnumeral (UInt32.toNat_ofNat_of_lt' hnumeral.positional_lt)⟩

/-- A text of the right length is read digit by digit. -/
theorem parse_eq_readDigits {text digits : Text} (h : Unmarked text digits) (hne : digits ≠ [])
    (hsize : digits.size ≤ 8) : parse text = (readDigits 0 digits).map Nat.toUInt32 := by
  have hshort : ¬ maxDigits < digits.size := Nat.not_lt_of_le hsize
  have hsome : ¬ digits.isEmpty = true := by simpa using hne
  rw [parse, ← unmarked_iff.mp h]
  show (if maxDigits < digits.size then _ else if digits.isEmpty = true then _ else _) = _
  rw [if_neg hshort, if_neg hsome]

/-- The reader does what the grammar says. -/
theorem parse_of_reading {text digits : Text} {outcome : Except Malformed UInt32}
    (h : Unmarked text digits) (hreading : Reading digits outcome) : parse text = outcome := by
  cases hreading with
  | tooLong hlong =>
    rw [parse, ← unmarked_iff.mp h]
    exact if_pos hlong
  | empty hempty =>
    rw [parse, ← unmarked_iff.mp h, hempty]
    rfl
  | @invalidCharacter c hsize hother =>
    -- The reader stops at the first character that is no digit.
    obtain ⟨hc, before, after, rfl, hbefore⟩ := List.find?_eq_some_iff_append.mp hother
    have hdigit : ∀ b ∈ before, IsDigit b := by simpa using hbefore
    have hnot : ¬ IsDigit c := by simpa using hc
    rw [parse_eq_readDigits h (by simp) hsize, readDigits_of_not_isDigit hdigit hnot]
    rfl
  | @number value hnumeral hvalue =>
    have hne : digits ≠ [] := List.length_pos_iff.mp hnumeral.nonempty
    have hsize : digits.size ≤ 8 := hnumeral.size_eq ▸ hnumeral.length_le
    rw [parse_eq_readDigits h hne hsize, readDigits_of_isDigit hnumeral.isDigit, ← hvalue]
    exact congrArg Except.ok UInt32.ofNat_toNat

/-- And it does nothing else. -/
theorem parse_eq_iff {text digits : Text} (h : Unmarked text digits)
    (outcome : Except Malformed UInt32) : parse text = outcome ↔ Reading digits outcome := by
  constructor
  · rintro rfl
    obtain ⟨outcome, hreading⟩ := exists_reading digits
    rw [parse_of_reading h hreading]
    exact hreading
  · exact parse_of_reading h

/-- **The reader accepts the grammar and nothing else.** What it reads is the positional value, and
of the faults of other texts it reports the length first, and then the first character that is no
digit. -/
theorem parse_classifies (text : Text) :
    ∃ digits, (∀ other, Unmarked text other ↔ other = digits) ∧
      ((∃ value, parse text = .ok value) ↔ IsNumeral digits) ∧
      (∀ value, parse text = .ok value → value.toNat = positional digits) ∧
      (parse text = .error .tooLong ↔ 8 < digits.utf8.length) ∧
      (parse text = .error .empty ↔ digits = []) ∧
      ∀ c, parse text = .error (.invalidCharacter c) ↔
        digits.utf8.length ≤ 8 ∧ digits.find? (¬ IsDigit ·) = some c := by
  have hunmarked : Unmarked text (stripMarker text) := unmarked_iff.mpr rfl
  -- The readings exclude one another, so each outcome of the reader is one of them.
  have hparse := parse_eq_iff hunmarked
  refine ⟨stripMarker text, fun other => unmarked_iff, ?_, ?_, ?_, ?_, ?_⟩
  · constructor
    · rintro ⟨value, hvalue⟩
      cases (hparse _).mp hvalue with
      | number hnumeral => exact hnumeral
    · intro hnumeral
      exact ⟨_, (hparse _).mpr
        (.number hnumeral (UInt32.toNat_ofNat_of_lt' hnumeral.positional_lt))⟩
  · intro value hvalue
    cases (hparse _).mp hvalue with
    | number hnumeral hpositional => exact hpositional
  · rw [hparse]
    constructor
    · rintro ⟨hlong⟩
      exact hlong
    · exact .tooLong
  · rw [hparse]
    constructor
    · rintro ⟨⟩
      assumption
    · exact .empty
  · intro c
    rw [hparse]
    constructor
    · rintro ⟨⟩
      exact ⟨‹_›, ‹_›⟩
    · rintro ⟨hsize, hother⟩
      exact .invalidCharacter hsize hother

/-- Only one marker is taken off, and five letters of two bytes each are too long. -/
example : parse "0x0X1" = .error (.invalidCharacter 'X') ∧ parse "ééééé" = .error .tooLong := by
  decide +kernel

/-! ### Writing what was read -/

/-- Digits that fill a width are what is written of their value. -/
theorem written_ofDigits {base : Nat} (hbase : 1 < base) {digits : List Nat}
    (hdigit : ∀ digit ∈ digits, digit < base) (hne : digits ≠ []) :
    written base digits.length (Nat.ofDigits base digits.reverse) = digits := by
  let value := Nat.ofDigits base digits.reverse
  have hreverse : ∀ digit ∈ digits.reverse, digit < base := by simpa using hdigit
  have hfits : (Nat.digits base value).length ≤ digits.length := by
    rw [Nat.digits_length_le_iff hbase, ← List.length_reverse]
    exact Nat.ofDigits_lt_base_pow_length hbase hreverse
  have hlength : (written base digits.length value).length = digits.length := by
    have hpos := List.length_pos_of_ne_nil hne
    rw [length_written]
    omega
  have hvalue := ofDigits_written base digits.length value
  -- Two lists of digits with one length and one value are the same list.
  apply List.reverse_injective
  apply Nat.ofDigits_inj_of_len_eq hbase (by simpa using hlength)
    (fun digit hmem => lt_of_mem_written hbase (List.mem_reverse.mp hmem)) hreverse
  simpa [Nat.ofDigits_append] using hvalue

/-- A numeral is written again in lower case. -/
theorem IsNumeral.padded_eq {digits : Text} (h : IsNumeral digits) :
    padded 16 digits.length (positional digits) = digits.map Char.toLower := by
  have hne : digits.map digitValue ≠ [] := by
    have hpos := h.nonempty
    rw [← List.length_pos_iff, List.length_map]
    omega
  have hdigit : ∀ digit ∈ digits.map digitValue, digit < 16 := by
    intro digit hmem
    obtain ⟨c, hc, rfl⟩ := List.mem_map.mp hmem
    exact digitValue_lt (h.isDigit c hc)
  have hwritten := written_ofDigits (by omega) hdigit hne
  rw [List.length_map] at hwritten
  rw [padded_eq_map (by omega), positional, hwritten, List.map_map]
  exact List.map_congr_left fun c hc => digitChar_digitValue (h.isDigit c hc)

/-- What was read is written back as it was, in lower case. -/
theorem hex_of_parse {text digits : Text} {value : UInt32} (h : Unmarked text digits)
    (hparse : parse text = .ok value) :
    digits.length ≤ maxDigits ∧
      hex value digits.length = '0' :: 'x' :: digits.map Char.toLower := by
  cases (parse_eq_iff h _).mp hparse with
  | number hnumeral hvalue =>
    refine ⟨hnumeral.length_le, ?_⟩
    show '0' :: 'x' :: padded 16 digits.length value.toNat = _
    rw [hvalue, hnumeral.padded_eq]

/-- A number that is padded too far is not read back. -/
theorem parse_hex_of_lt (value : UInt32) {minDigits : Nat} (h : maxDigits < minDigits) :
    parse (hex value minDigits) = .error .tooLong := by
  have hlong : minDigits ≤ (padded 16 minDigits value.toNat).size := by
    have hlength := length_written 16 minDigits value.toNat
    have hsize := length_le_size (padded 16 minDigits value.toNat)
    rw [padded_eq_map (by omega), List.length_map] at hsize
    rw [padded_eq_map (by omega)]
    omega
  exact parse_of_reading (.lower _) (.tooLong (Nat.lt_of_lt_of_le h hlong))

/-- **Writing and reading are inverse to each other,** as far as they can be. What was written is
read back exactly if it is not padded to more digits than are read. What was read is written again
in as many digits, without its case and its marker, so these are all that two numerals of one length
and one value may differ in. -/
theorem parse_hex_inverse :
    (∀ (value : UInt32) (minDigits : Nat), parse (hex value minDigits) =
      if minDigits ≤ 8 then .ok value else .error .tooLong) ∧
    (∀ (text digits : Text) (value : UInt32), Unmarked text digits → parse text = .ok value →
      hex value digits.length = '0' :: 'x' :: digits.map Char.toLower) ∧
    ∀ (text other digits others : Text) (value found : UInt32),
      Unmarked text digits → parse text = .ok value →
      Unmarked other others → parse other = .ok found → digits.length = others.length →
        (value = found ↔ digits.map Char.toLower = others.map Char.toLower) := by
  refine ⟨?_, ?_, ?_⟩
  · intro value minDigits
    split
    next hfits => exact parse_hex value hfits
    next hlong => exact parse_hex_of_lt value (Nat.lt_of_not_le hlong)
  · intro text digits value hunmarked hparse
    exact (hex_of_parse hunmarked hparse).2
  · intro text other digits others value found hunmarked hparse hbare hfound hlength
    obtain ⟨hfits, hwritten⟩ := hex_of_parse hunmarked hparse
    obtain ⟨-, hwrittenOther⟩ := hex_of_parse hbare hfound
    constructor
    · rintro rfl
      rw [hlength, hwrittenOther] at hwritten
      simpa using hwritten.symm
    · intro hlower
      -- What is written the same is read the same.
      have hsame : hex value digits.length = hex found digits.length := by
        rw [hwritten, hlength, hwrittenOther, hlower]
      have hread := parse_hex value hfits
      rw [hsame, parse_hex found hfits] at hread
      exact (Except.ok.inj hread).symm

/-- Another marker and the other case are no difference. -/
theorem parse_hex_inverse_marked :
    parse "0X00fF" = .ok 0xff ∧ parse "00Ff" = .ok 0xff ∧
      hex 0xff 4 = ("0x00ff" : Text) ∧ parse (hex 0xff 9) = .error .tooLong ∧
      ((0xff : UInt32) = 0xff ↔
        ("00fF" : Text).map Char.toLower = ("00Ff" : Text).map Char.toLower) := by
  have hmarked : Unmarked "0X00fF" "00fF" := .upper _
  have hbare : Unmarked "00Ff" "00Ff" := unmarked_iff.mpr (by decide +kernel)
  have hparse : parse "0X00fF" = .ok 0xff := by decide +kernel
  have hother : parse "00Ff" = .ok 0xff := by decide +kernel
  obtain ⟨hread, hwrite, hsame⟩ := parse_hex_inverse
  exact ⟨hparse, hother, hwrite _ _ _ hmarked hparse, hread 0xff 9,
    hsame _ _ _ _ _ _ hmarked hparse hbare hother rfl⟩

end DebugMonitor.Numeral
