import Mathlib
import Registrar.Proofs.Radix
import Registrar.Proofs.Text.Utf8
import Registrar.Text.Base58

/-!
# Base58 text is read exactly as it is written

A byte string and its Base58 text are the same numeral in two bases: they spell one number and have
the same number of zeros in front. Nothing else is in either of them, so writing and reading undo each
other, and no text but the one that is written reads as a byte string. The first byte alone may tell how
long the text is and what it begins with.
-/

namespace Registrar.Text.Base58

open Radix (numeral zeros)
open Utf8 (asciiChar)

/-! ## Digits -/

/-- The byte of a digit. -/
def digitByte (d : Nat) : UInt8 :=
  UInt8.ofNat (charOf d).toNat

/-- The digits are plain ASCII. -/
theorem toNat_digitByte_lt : ∀ d < 58, (digitByte d).toNat < 128 := by
  decide +kernel

theorem asciiChar_digitByte : ∀ d < 58, asciiChar (digitByte d) = charOf d := by
  decide +kernel

/-- Each digit has a value of its own. -/
theorem valueOf?_charOf : ∀ d < 58, valueOf? (charOf d) = some d := by
  decide +kernel

theorem charOf_of_valueOf? {c : Char} {d : Nat} (h : valueOf? c = some d) :
    d < 58 ∧ charOf d = c := by
  obtain ⟨hlt, hc, -⟩ := List.idxOf?_eq_some_iff.mp h
  refine ⟨hlt, ?_⟩
  unfold charOf
  rw [List.getD_eq_getElem _ _ hlt]
  exact hc

/-- A byte has the value of a digit just if it is the byte of this digit. -/
theorem valueOf?_eq_some_iff {b : UInt8} (hb : b.toNat < 128) {d : Nat} :
    valueOf? (Char.ofNat b.toNat) = some d ↔ d < 58 ∧ digitByte d = b := by
  constructor
  · intro h
    obtain ⟨hd, hchar⟩ := charOf_of_valueOf? h
    refine ⟨hd, ?_⟩
    unfold digitByte
    rw [hchar, show (Char.ofNat b.toNat).toNat = b.toNat from Utf8.toNat_asciiChar hb,
      UInt8.ofNat_toNat]
  · rintro ⟨hd, rfl⟩
    rw [show Char.ofNat (digitByte d).toNat = charOf d from asciiChar_digitByte d hd]
    exact valueOf?_charOf d hd

/-- Bytes read as digits just if they are the bytes of these digits. -/
theorem digitValues_eq_ok_iff {position : Nat} {bytes : List UInt8} {ds : List Nat} :
    digitValues position bytes = .ok ds ↔ (∀ d ∈ ds, d < 58) ∧ ds.map digitByte = bytes := by
  induction bytes generalizing position ds with
  | nil =>
    rw [digitValues, Except.ok.injEq, List.map_eq_nil_iff]
    constructor
    · rintro rfl
      exact ⟨fun d hd => absurd hd List.not_mem_nil, rfl⟩
    · exact fun h => h.2.symm
  | cons b bytes ih =>
    rw [digitValues]
    constructor
    · intro h
      split_ifs at h with hwide
      split at h
      · cases h
      · next d hd =>
        rcases hrest : digitValues (position + 1) bytes with e | rest
        · rw [hrest] at h
          cases h
        · rw [hrest] at h
          cases h
          obtain ⟨hlt, rfl⟩ := ih.mp hrest
          obtain ⟨hd58, hbyte⟩ := (valueOf?_eq_some_iff (by omega)).mp hd
          refine ⟨List.forall_mem_cons.mpr ⟨hd58, hlt⟩, ?_⟩
          rw [List.map_cons, hbyte]
    · rintro ⟨hlt, hbytes⟩
      obtain _ | ⟨d, rest⟩ := ds
      · cases hbytes
      · rw [List.map_cons, List.cons.injEq] at hbytes
        obtain ⟨rfl, hrest⟩ := hbytes
        obtain ⟨hd, hlt⟩ := List.forall_mem_cons.mp hlt
        have hascii := toNat_digitByte_lt d hd
        rw [if_neg (by omega), (valueOf?_eq_some_iff hascii).mpr ⟨hd, rfl⟩]
        simp only [ih.mpr ⟨hlt, hrest⟩]
        rfl

/-! ## Texts of digits -/

/-- The text of digits. -/
def textOf (ds : List Nat) : String :=
  String.ofList (ds.map charOf)

theorem encode_textOf {ds : List Nat} (h : ∀ d ∈ ds, d < 58) :
    Utf8.encode (textOf ds) = ds.map digitByte := by
  have hchars : ds.map charOf = (ds.map digitByte).map asciiChar := by
    rw [List.map_map]
    exact List.map_congr_left fun d hd => (asciiChar_digitByte d (h d hd)).symm
  unfold textOf
  rw [hchars]
  exact Utf8.encode_ofList_ascii (List.forall_mem_map.mpr fun d hd => toNat_digitByte_lt d (h d hd))

/-- A text reads as digits just if it is their text. -/
theorem digitValues_encode_iff {text : String} {ds : List Nat} :
    digitValues 0 (Utf8.encode text) = .ok ds ↔ (∀ d ∈ ds, d < 58) ∧ text = textOf ds := by
  rw [digitValues_eq_ok_iff]
  refine and_congr_right fun hlt => ?_
  rw [← encode_textOf hlt, Utf8.encode_inj]
  exact eq_comm

/-! ## Byte strings -/

/-- The digits that a byte string is written in. -/
def digitsOf (bytes : List UInt8) : List Nat :=
  numeral 58 Nat.one_lt_ofNat (zeros (bytes.map UInt8.toNat))
    (Radix.ofDigits 256 (bytes.map UInt8.toNat).reverse)

theorem lt_of_mem_digitsOf {bytes : List UInt8} : ∀ d ∈ digitsOf bytes, d < 58 :=
  fun _ hd => Radix.lt_of_mem_numeral hd

/-- Zero bytes are as many as the zeros among their numbers. -/
theorem zeros_map_toNat (bytes : List UInt8) :
    zeros (bytes.map UInt8.toNat) = (bytes.takeWhile (· = 0)).length := by
  unfold zeros
  rw [List.takeWhile_map, List.length_map]
  congr 2
  funext b
  exact decide_eq_decide.mpr (UInt8.toNat_inj (b := 0))

theorem encode_eq (bytes : List UInt8) : encode bytes = textOf (digitsOf bytes) := by
  unfold encode encodeChars textOf digitsOf numeral
  rw [zeros_map_toNat, ← List.map_reverse, List.map_append, List.map_replicate]
  rfl

/-- What digits spell is a numeral too. -/
theorem ofDigitValues_eq (ds : List Nat) :
    ofDigitValues ds
      = (numeral 256 Nat.one_lt_ofNat (zeros ds) (Radix.ofDigits 58 ds.reverse)).map UInt8.ofNat := by
  unfold ofDigitValues numeral Radix.bytes
  rw [List.map_append, List.map_replicate, List.map_reverse]
  rfl

theorem map_toNat_ofDigitValues (ds : List Nat) :
    (ofDigitValues ds).map UInt8.toNat
      = numeral 256 Nat.one_lt_ofNat (zeros ds) (Radix.ofDigits 58 ds.reverse) := by
  rw [ofDigitValues_eq, List.map_map]
  conv_rhs => rw [← List.map_id (numeral _ _ _ _)]
  exact List.map_congr_left fun d hd => UInt8.toNat_ofNat_of_lt' (Radix.lt_of_mem_numeral hd)

/-- A byte string is what its digits spell. -/
theorem ofDigitValues_digitsOf (bytes : List UInt8) : ofDigitValues (digitsOf bytes) = bytes := by
  apply (List.map_injective_iff.mpr fun _ _ => UInt8.toNat_inj.mp)
  rw [map_toNat_ofDigitValues]
  unfold digitsOf
  rw [Radix.zeros_numeral, Radix.ofDigits_numeral]
  exact Radix.numeral_zeros (List.forall_mem_map.mpr fun b _ => b.toNat_lt)

/-- Digits are those of the byte string that they spell. -/
theorem digitsOf_ofDigitValues {ds : List Nat} (h : ∀ d ∈ ds, d < 58) :
    digitsOf (ofDigitValues ds) = ds := by
  unfold digitsOf
  rw [map_toNat_ofDigitValues, Radix.zeros_numeral, Radix.ofDigits_numeral]
  exact Radix.numeral_zeros h

/-- **Base58 text is read exactly as it is written.** A text reads as a byte string just if it is the
text of this byte string. -/
theorem decode_eq_ok_iff {text : String} {bytes : List UInt8} :
    decode text = .ok bytes ↔ text = encode bytes := by
  have hdecode : decode text
      = (digitValues 0 (Utf8.encode text)).map ofDigitValues := rfl
  rw [hdecode, encode_eq]
  constructor
  · intro h
    rcases hdigits : digitValues 0 (Utf8.encode text) with e | ds
    · rw [hdigits] at h
      cases h
    · rw [hdigits] at h
      obtain ⟨hlt, rfl⟩ := digitValues_encode_iff.mp hdigits
      rw [← Except.ok.inj h, digitsOf_ofDigitValues hlt]
  · intro h
    rw [digitValues_encode_iff.mpr ⟨lt_of_mem_digitsOf, h⟩]
    exact congrArg Except.ok (ofDigitValues_digitsOf bytes)

/-! ## What a text looks like -/

theorem toList_encode (bytes : List UInt8) : (encode bytes).toList = (digitsOf bytes).map charOf := by
  rw [encode_eq, textOf, String.toList_ofList]

theorem charOf_mem_alphabet : ∀ d < 58, charOf d ∈ alphabet := by
  decide

/-- Nothing is written but digits. -/
theorem mem_alphabet_of_mem_encode {bytes : List UInt8} {c : Char}
    (hc : c ∈ (encode bytes).toList) : c ∈ alphabet := by
  rw [toList_encode] at hc
  obtain ⟨d, hd, rfl⟩ := List.mem_map.mp hc
  exact charOf_mem_alphabet d (lt_of_mem_digitsOf d hd)

/-- Where the first byte is not zero, and all numbers of as many bytes that begin with it lie between
`d` and `d + 1` times one power of 58, the text begins with the digit `d` and has as many characters
behind it as the exponent says. -/
theorem exists_encode_of_bounds {b : UInt8} {bytes : List UInt8} {k d : Nat} (hb : b ≠ 0)
    (hlow : d * 58 ^ k ≤ b.toNat * 256 ^ bytes.length)
    (hhigh : (b.toNat + 1) * 256 ^ bytes.length ≤ (d + 1) * 58 ^ k) (hpos : 0 < d) (hd : d < 58) :
    ∃ rest, (encode (b :: bytes)).toList = charOf d :: rest ∧ rest.length = k := by
  have hzeros : zeros ((b :: bytes).map UInt8.toNat) = 0 := by
    rw [zeros_map_toNat, List.takeWhile_cons_of_neg (by simpa using hb), List.length_nil]
  have hvalue : Radix.ofDigits 256 ((b :: bytes).map UInt8.toNat).reverse
      = b.toNat * 256 ^ bytes.length + Radix.ofLittleEndian bytes.reverse := by
    rw [← List.map_reverse, List.reverse_cons, ← @List.length_reverse _ bytes]
    exact Radix.ofLittleEndian_concat bytes.reverse b
  have hrest : Radix.ofLittleEndian bytes.reverse < 256 ^ bytes.length := by
    rw [← @List.length_reverse _ bytes]
    exact Radix.ofLittleEndian_lt bytes.reverse
  have hdiv : (b.toNat * 256 ^ bytes.length + Radix.ofLittleEndian bytes.reverse) / 58 ^ k = d := by
    rw [Nat.add_mul, Nat.one_mul] at hhigh
    apply Nat.div_eq_of_lt_le
    · omega
    · omega
  obtain ⟨rest, hdigits, hlength⟩ :=
    Radix.exists_digits_of_div (h := Nat.one_lt_ofNat) hdiv hpos hd
  refine ⟨rest.map charOf, ?_, ?_⟩
  · rw [toList_encode, digitsOf, hzeros, hvalue, numeral, hdigits]
    rfl
  · rw [List.length_map, hlength]

end Registrar.Text.Base58
