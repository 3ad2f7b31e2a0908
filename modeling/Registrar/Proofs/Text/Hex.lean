import Mathlib
import Registrar.Proofs.Text.Utf8
import Registrar.Text.Hex

/-!
# Hexadecimal text is read as it was written

Each of the sixteen digits has its own value, so the two digits of a byte give its halves, and a
byte string is read as it was written.
-/

namespace Registrar.Text.Hex

open Utf8 (asciiChar)

/-! ## Digits -/

/-- The byte of a digit. -/
def digitByte (n : Nat) : UInt8 :=
  if n < 10 then UInt8.ofNat (48 + n) else UInt8.ofNat (87 + n)

theorem toNat_digitByte {n : Nat} (h : n < 16) :
    (digitByte n).toNat = if n < 10 then 48 + n else 87 + n := by
  unfold digitByte
  split_ifs <;> exact Nat.mod_eq_of_lt (by omega)

theorem asciiChar_digitByte {n : Nat} (h : n < 16) : asciiChar (digitByte n) = digit n := by
  unfold asciiChar digit
  rw [toNat_digitByte h]
  split_ifs <;> rfl

/-- A digit reads back as its value. -/
theorem value?_digitByte {n : Nat} (h : n < 16) : value? (digitByte n).toNat = some n := by
  rw [toNat_digitByte h]
  unfold value?
  by_cases hn : n < 10
  · rw [if_pos hn, if_pos (by omega), Nat.add_sub_cancel_left]
  · rw [if_neg hn, if_neg (by omega), if_neg (by omega), if_pos (by omega),
      Nat.add_sub_cancel_left]

theorem value?_digit {n : Nat} (h : n < 16) : value? (digit n).toNat = some n := by
  have hascii : (digitByte n).toNat < 128 := by
    rw [toNat_digitByte h]
    split_ifs <;> omega
  rw [← asciiChar_digitByte h, Utf8.toNat_asciiChar hascii]
  exact value?_digitByte h

/-! ## Byte strings -/

/-- The bytes of the two digits of a byte. -/
def pairBytes (b : UInt8) : List UInt8 :=
  [digitByte (b.toNat / 16), digitByte (b.toNat % 16)]

theorem halves_lt (b : UInt8) : b.toNat / 16 < 16 ∧ b.toNat % 16 < 16 := by
  have hlt := b.toNat_lt
  omega

theorem digits_eq (bytes : List UInt8) :
    digits bytes = (bytes.flatMap pairBytes).map asciiChar := by
  unfold digits
  rw [List.map_flatMap]
  refine List.flatMap_congr fun b _ => ?_
  obtain ⟨hhigh, hlow⟩ := halves_lt b
  simp only [pair, pairBytes, List.map_cons, List.map_nil, asciiChar_digitByte hhigh,
    asciiChar_digitByte hlow]

theorem isAscii_pairBytes (bytes : List UInt8) : Utf8.IsAscii (bytes.flatMap pairBytes) := by
  intro d hd
  obtain ⟨b, -, hb⟩ := List.mem_flatMap.mp hd
  obtain ⟨hhigh, hlow⟩ := halves_lt b
  simp only [pairBytes, List.mem_cons, List.not_mem_nil, or_false] at hb
  rcases hb with rfl | rfl
  · rw [toNat_digitByte hhigh]
    split_ifs <;> omega
  · rw [toNat_digitByte hlow]
    split_ifs <;> omega

theorem decodePairs_pairBytes (position : Nat) (bytes : List UInt8) :
    decodePairs position (bytes.flatMap pairBytes) = .ok bytes := by
  induction bytes generalizing position with
  | nil => rfl
  | cons b bytes ih =>
    obtain ⟨hhigh, hlow⟩ := halves_lt b
    have hwhole : 16 * (b.toNat / 16) + b.toNat % 16 = b.toNat := Nat.div_add_mod b.toNat 16
    show decodePairs position (digitByte (b.toNat / 16) :: digitByte (b.toNat % 16)
      :: bytes.flatMap pairBytes) = _
    rw [decodePairs]
    simp only [value?_digitByte hhigh, value?_digitByte hlow, ih, hwhole, UInt8.ofNat_toNat]
    rfl

/-- **Hexadecimal text is read as it was written.** -/
theorem decode_encode (bytes : List UInt8) : decode (encode bytes) = .ok bytes := by
  have hbytes : (encode bytes).toUTF8.data.toList = bytes.flatMap pairBytes := by
    unfold encode
    rw [digits_eq]
    exact Utf8.encode_ofList_ascii (isAscii_pairBytes bytes)
  have heven : (bytes.flatMap pairBytes).length % 2 ≠ 1 := by
    rw [← List.length_map asciiChar, ← digits_eq, length_digits]
    omega
  unfold decode decodeBytes
  rw [hbytes, if_neg heven]
  exact decodePairs_pairBytes 0 bytes

@[simp] theorem length_encode (bytes : List UInt8) : (encode bytes).length = 2 * bytes.length := by
  rw [encode, String.length_ofList, length_digits]

/-- Byte strings that are written alike are the same. -/
theorem encode_inj {a b : List UInt8} : encode a = encode b ↔ a = b := by
  constructor
  · intro h
    have ha := decode_encode a
    rw [h, decode_encode] at ha
    exact (Except.ok.inj ha).symm
  · rintro rfl
    rfl

end Registrar.Text.Hex
