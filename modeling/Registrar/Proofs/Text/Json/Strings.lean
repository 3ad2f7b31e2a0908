import Mathlib
import Registrar.Proofs.Text.Hex
import Registrar.Text.Json.Escape

/-!
# Strings are read as they were written

Whatever character is written into a string, escaped or as it is, is read back as one character, and
what stands behind it is left. So a string of any characters is read as it was written, up to its
closing quote and no further.
-/

namespace Registrar.Text.Json

/-! ## Escapes -/

/-- The four digits of a code unit below 256 are read as its value. -/
theorem codeUnit_digits {n : Nat} (h : n < 256) (rest : List Char) :
    codeUnit ('0' :: '0' :: Hex.digit (n / 16) :: Hex.digit (n % 16) :: rest) = .ok (n, rest) := by
  have hzero : Hex.value? '0'.toNat = some 0 := rfl
  have hhigh : Hex.value? (Hex.digit (n / 16)).toNat = some (n / 16) := Hex.value?_digit (by omega)
  have hlow : Hex.value? (Hex.digit (n % 16)).toNat = some (n % 16) := Hex.value?_digit (by omega)
  unfold codeUnit
  simp only [hzero, hhigh, hlow]
  rw [show ((0 * 16 + 0) * 16 + n / 16) * 16 + n % 16 = n by omega]

/-- A character below the blank is read from its code unit. -/
theorem unicodeEscape_digits {c : Char} (h : c.toNat < 32) (rest : List Char) :
    unicodeEscape ('0' :: '0' :: Hex.digit (c.toNat / 16) :: Hex.digit (c.toNat % 16) :: rest)
      = .ok (c, rest) := by
  have hlow : isLowSurrogate c.toNat = false := by
    unfold isLowSurrogate
    rw [Bool.and_eq_false_iff, decide_eq_false_iff_not]
    omega
  have hhigh : isHighSurrogate c.toNat = false := by
    unfold isHighSurrogate
    rw [Bool.and_eq_false_iff, decide_eq_false_iff_not]
    omega
  unfold unicodeEscape
  rw [codeUnit_digits (by omega)]
  simp only [hlow, hhigh, Bool.false_eq_true, if_false, Char.ofNat_toNat]

/-- A character that needs no escape is read as it is. -/
theorem stringItem_plain {c : Char} (hquote : c ≠ '"') (hbackslash : c ≠ '\\')
    (hblank : ¬ c.toNat < 32) (rest : List Char) : stringItem (c :: rest) = .ok (some c, rest) := by
  rw [stringItem.eq_def]
  split
  next heq => cases heq
  next heq => exact absurd (List.cons.inj heq).1 hquote
  next heq => exact absurd (List.cons.inj heq).1 hbackslash
  next heq => exact absurd (List.cons.inj heq).1 hbackslash
  next heq => exact absurd (List.cons.inj heq).1 hbackslash
  next heq =>
    obtain ⟨rfl, rfl⟩ := List.cons.inj heq
    rw [if_neg hblank]

/-- What is written for a character is read as that character. -/
theorem stringItem_escape (c : Char) (rest : List Char) :
    stringItem (escape c ++ rest) = .ok (some c, rest) := by
  unfold escape
  split_ifs with hquote hbackslash hbackspace hfeed hline hreturn htab hcontrol
  · rw [hquote]
    rfl
  · rw [hbackslash]
    rfl
  · rw [hbackspace]
    rfl
  · rw [hfeed]
    rfl
  · rw [hline]
    rfl
  · rw [hreturn]
    rfl
  · rw [htab]
    rfl
  · show stringItem ('\\' :: 'u' :: '0' :: '0' :: Hex.digit (c.toNat / 16)
      :: Hex.digit (c.toNat % 16) :: rest) = _
    rw [stringItem, unicodeEscape_digits hcontrol]
  · exact stringItem_plain hquote hbackslash hcontrol rest

/-! ## Whole strings -/

theorem stringAfter_eq (done s : List Char) :
    stringAfter done s = match stringItem s with
      | .error e => .error e
      | .ok (none, rest) => .ok (String.ofList done.reverse, rest)
      | .ok (some c, rest) => stringAfter (c :: done) rest := by
  rw [stringAfter]
  split <;> simp only [*]

/-- After the characters that were read, the others are read up to the closing quote. -/
theorem stringAfter_escape (done cs rest : List Char) :
    stringAfter done (cs.flatMap escape ++ '"' :: rest)
      = .ok (String.ofList (done.reverse ++ cs), rest) := by
  induction cs generalizing done with
  | nil =>
    rw [List.append_nil, stringAfter_eq]
    rfl
  | cons c cs ih =>
    rw [List.flatMap_cons, List.append_assoc, stringAfter_eq, stringItem_escape]
    simp only [ih, List.reverse_cons, List.append_assoc, List.singleton_append]

/-- **A string is read as it was written.** -/
theorem stringBody_quote (s : String) (rest : List Char) :
    stringBody (s.toList.flatMap escape ++ '"' :: rest) = .ok (s, rest) := by
  unfold stringBody
  rw [stringAfter_escape, List.reverse_nil, List.nil_append, String.ofList_toList]

end Registrar.Text.Json
