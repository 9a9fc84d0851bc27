import DebugMonitor.Bytes
import Mathlib.Data.Nat.Digits.Lemmas

/-!
# Words as little-endian numerals

A word and its four bytes determine each other, and the bytes are the digits of the word in base
256, the least significant one first.
-/

namespace DebugMonitor.Word

/-! ### From words to bytes -/

@[simp] theorem length_toBytes (word : UInt32) : (toBytes word).length = 4 := rfl

/-- The byte at position `i` of a word is its digit of weight `256 ^ i`. -/
theorem toBytes_eq_map (word : UInt32) :
    toBytes word = (List.range 4).map fun i => (word.toNat / 256 ^ i).toUInt8 := by
  have byte (k : Nat) (shift : UInt32) (hs : shift.toNat % 32 = 8 * k) :
      (word >>> shift).toUInt8 = (word.toNat / 256 ^ k).toUInt8 := by
    rw [← UInt8.toNat_inj]
    rw [UInt32.toNat_toUInt8, UInt32.toNat_shiftRight, hs, Nat.shiftRight_eq_div_pow, Nat.pow_mul]
    exact UInt8.toNat_ofNat'.symm
  simp only [toBytes, List.range, List.range.loop, List.map_cons, List.map_nil]
  rw [byte 1 8 rfl, byte 2 16 rfl, byte 3 24 rfl, Nat.pow_zero, Nat.div_one]
  rfl

/-! ### From bytes to words -/

/-- Digits side by side: nothing is carried from the lower ones. -/
theorem or_shiftLeft_eq_add {low k : Nat} (h : low < 2 ^ k) (high : Nat) :
    low ||| high <<< k = low + 2 ^ k * high := by
  rw [Nat.or_comm, ← Nat.shiftLeft_add_eq_or_of_lt h, Nat.shiftLeft_eq, Nat.mul_comm, Nat.add_comm]

theorem digit_lt {bytes : Bytes} {digit : Nat} (h : digit ∈ bytes.map UInt8.toNat) :
    digit < 256 := by
  obtain ⟨byte, _, rfl⟩ := List.mem_map.mp h
  exact byte.toNat_lt

/-- Bytes are worth less than the power of their number. -/
theorem ofDigits_lt (bytes : Bytes) :
    Nat.ofDigits 256 (bytes.map UInt8.toNat) < 256 ^ bytes.length := by
  have h := Nat.ofDigits_lt_base_pow_length (b := 256) (l := bytes.map UInt8.toNat) (by omega)
    fun _ => digit_lt
  rwa [List.length_map] at h

/-- Up to four bytes lose nothing when they are put together. -/
theorem toNat_ofBytes {bytes : Bytes} (h : bytes.length ≤ 4) :
    (ofBytes bytes).toNat = Nat.ofDigits 256 (bytes.map UInt8.toNat) := by
  induction bytes with
  | nil => rfl
  | cons b rest ih =>
    have hlen : rest.length ≤ 3 := Nat.le_of_succ_le_succ h
    have hrest := ih (by omega)
    have hlt : (ofBytes rest).toNat < 256 ^ 3 := by
      rw [hrest]
      exact Nat.lt_of_lt_of_le (ofDigits_lt rest) (Nat.pow_le_pow_right (by omega) hlen)
    rw [List.map_cons, Nat.ofDigits_cons, ← hrest, ofBytes]
    rw [UInt32.toNat_or, UInt32.toNat_shiftLeft, UInt8.toNat_toUInt32]
    rw [show (8 : UInt32).toNat % 32 = 8 from rfl]
    -- Three bytes and eight places more still fit, so the shift loses nothing.
    rw [Nat.mod_eq_of_lt (by rw [Nat.shiftLeft_eq]; omega), or_shiftLeft_eq_add b.toNat_lt]
    rfl

/-- Different bytes make different words, up to four of them. -/
theorem ofBytes_inj {s t : Bytes} (hs : s.length ≤ 4) (hlen : s.length = t.length)
    (h : ofBytes s = ofBytes t) : s = t := by
  have hdigits : Nat.ofDigits 256 (s.map UInt8.toNat) = Nat.ofDigits 256 (t.map UInt8.toNat) := by
    rw [← toNat_ofBytes hs, ← toNat_ofBytes (hlen ▸ hs), h]
  -- Numerals of the same length have the same digits.
  have hmap : s.map UInt8.toNat = t.map UInt8.toNat :=
    Nat.ofDigits_inj_of_len_eq (by omega) (by simpa using hlen) (fun _ => digit_lt)
      (fun _ => digit_lt) hdigits
  exact List.map_injective_iff.mpr (fun _ _ => UInt8.toNat_inj.mp) hmap

/-- A word is the numeral of its bytes. -/
@[simp] theorem ofBytes_toBytes (word : UInt32) : ofBytes (toBytes word) = word := by
  rw [← UInt32.toNat_inj, toNat_ofBytes (by simp), toBytes_eq_map]
  have h := word.toNat_lt
  simp only [List.range, List.range.loop, List.map_cons, List.map_nil, Nat.ofDigits_cons,
    Nat.ofDigits_nil]
  have byte (n : Nat) : n.toUInt8.toNat = n % 256 := UInt8.toNat_ofNat'
  simp only [byte]
  omega

/-- Four bytes are the bytes of their word. -/
theorem toBytes_ofBytes {bytes : Bytes} (h : bytes.length = 4) : toBytes (ofBytes bytes) = bytes :=
  ofBytes_inj (by simp) (by simp [h]) (by simp)

/-- One more byte is the next digit, up to the fourth. -/
theorem ofBytes_concat {bytes : Bytes} (h : bytes.length < 4) (b : UInt8) :
    ofBytes (bytes ++ [b]) = ofBytes bytes ||| b.toUInt32 <<< (8 * bytes.length).toUInt32 := by
  have hlt := ofDigits_lt bytes
  have hb := b.toNat_lt
  have hshift : (8 * bytes.length).toUInt32.toNat % 32 = 8 * bytes.length := by
    rw [show (8 * bytes.length).toUInt32.toNat = _ from UInt32.toNat_ofNat']
    omega
  -- The new byte stays inside the word, so neither the shift nor the sum wraps.
  have hpow : b.toNat <<< (8 * bytes.length) < 2 ^ 32 := by
    rw [Nat.shiftLeft_eq]
    calc b.toNat * 2 ^ (8 * bytes.length) ≤ b.toNat * 2 ^ 24 :=
          Nat.mul_le_mul_left _ (Nat.pow_le_pow_right (by omega) (by omega))
      _ < 2 ^ 32 := by omega
  rw [← UInt32.toNat_inj, UInt32.toNat_or, UInt32.toNat_shiftLeft, UInt8.toNat_toUInt32, hshift,
    Nat.mod_eq_of_lt hpow]
  rw [toNat_ofBytes (by simp; omega), toNat_ofBytes (by omega)]
  rw [or_shiftLeft_eq_add (by rwa [Nat.pow_mul])]
  rw [List.map_append, Nat.ofDigits_append, List.length_map, Nat.pow_mul]
  rw [List.map_singleton, Nat.ofDigits_singleton]

/-! ### Offsets -/

/-- Offsets are added up before they wrap round, or behind. -/
theorem add_offset (word : UInt32) (i j : Nat) :
    word + (i + j).toUInt32 = word + i.toUInt32 + j.toUInt32 := by
  rw [UInt32.add_assoc]
  exact congrArg (word + ·) (UInt32.ofNat_add i j)

end DebugMonitor.Word
