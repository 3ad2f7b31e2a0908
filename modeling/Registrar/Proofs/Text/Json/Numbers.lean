import Mathlib
import Registrar.Proofs.Text.Json.Writing
import Registrar.Text.Json.Numeral

/-!
# Numbers are read as they were written

A whole number is written in decimal digits, without a zero in front. It is read to the last of its
digits if something follows that goes on with no number, and in a text that is written that is so: a
comma or a closing mark follows, or nothing. A number below `2 ^ 64` loses none of its digits and is
far from the end of the doubles.
-/

namespace Registrar.Text.Json

/-! ## Digits -/

/-- No number but zero begins with a zero. -/
theorem decimal_ne_zero_cons {n : Nat} (h : 0 < n) (cs : List Char) : decimal n ≠ '0' :: cs := by
  unfold decimal
  -- along the digits, from the last one to the first
  induction n using Nat.strongRecOn generalizing cs with
  | ind n ih =>
    by_cases hlt : n < 10
    · rw [Nat.toDigits_of_lt_base hlt]
      intro heq
      have hchar : n.digitChar = '0' := (List.cons.inj heq).1
      interval_cases n <;> exact absurd hchar (by decide)
    · rw [Nat.toDigits_of_base_le (by decide) (Nat.le_of_not_lt hlt)]
      obtain ⟨d, ds, hds⟩ :=
        List.exists_cons_of_ne_nil (Nat.toDigits_ne_nil : Nat.toDigits 10 (n / 10) ≠ [])
      rw [hds, List.cons_append]
      intro heq
      rw [(List.cons.inj heq).1] at hds
      exact ih (n / 10) (by omega) (by omega) ds hds

theorem head_not_isDigit_of_delimited {rest : List Char} (h : Delimited rest) :
    rest.takeWhile Char.isDigit = [] ∧ rest.dropWhile Char.isDigit = rest := by
  cases rest with
  | nil => exact ⟨rfl, rfl⟩
  | cons c rest =>
    have hc : ¬ c.isDigit = true := by
      rcases h c rfl with rfl | rfl | rfl <;> decide
    exact ⟨List.takeWhile_cons_of_neg hc, List.dropWhile_cons_of_neg hc⟩

theorem someDigits_decimal (short : Fault) (n : Nat) {rest : List Char} (h : Delimited rest) :
    someDigits short (decimal n ++ rest) = .ok (decimal n, rest) := by
  obtain ⟨htake, hdrop⟩ := head_not_isDigit_of_delimited h
  obtain ⟨c, cs, hcons, -⟩ := exists_decimal_eq_cons n
  unfold someDigits
  rw [List.takeWhile_append_of_pos fun c hc => isDigit_of_mem_decimal hc,
    List.dropWhile_append_of_pos fun c hc => isDigit_of_mem_decimal hc, htake, hdrop,
    List.append_nil]
  simp only [hcons, List.isEmpty_cons, Bool.false_eq_true, if_false]

theorem wholeDigits_decimal (short : Fault) (n : Nat) {rest : List Char} (h : Delimited rest) :
    wholeDigits short (decimal n ++ rest) = .ok (decimal n, rest) := by
  unfold wholeDigits
  rw [someDigits_decimal short n h]
  split
  next heq => cases heq
  next heq =>
    -- a zero that something follows is not the number zero, and so it does not begin the number
    have hds := (Prod.mk.inj (Except.ok.inj heq)).1
    have hpos : 0 < n := by
      refine Nat.pos_of_ne_zero ?_
      rintro rfl
      cases hds
    exact absurd hds (decimal_ne_zero_cons hpos _)
  next heq =>
    cases heq
    rfl

theorem fraction_of_delimited (short : Fault) {rest : List Char} (h : Delimited rest) :
    fraction short rest = .ok (none, rest) := by
  rw [fraction.eq_def]
  split
  · rcases h '.' rfl with heq | heq | heq <;> exact absurd heq (by decide)
  · rfl

theorem exponent_of_delimited (short : Fault) {rest : List Char} (h : Delimited rest) :
    exponent short rest = .ok (none, rest) := by
  cases rest with
  | nil => rfl
  | cons c rest =>
    have hc : (c = 'e' || c = 'E') = false := by
      rcases h c rfl with rfl | rfl | rfl <;> decide
    rw [exponent.eq_def]
    simp only [hc, Bool.false_eq_true, if_false]

/-- A whole number is read to the last of its digits. -/
theorem numeral_decimal (short : Fault) (n : Nat) {rest : List Char} (h : Delimited rest) :
    numeral short (decimal n ++ rest)
      = .ok (Numeral.ofParts false (decimal n) none none, rest) := by
  have hunsigned : unsigned short false (decimal n ++ rest)
      = .ok (Numeral.ofParts false (decimal n) none none, rest) := by
    unfold unsigned
    rw [wholeDigits_decimal short n h]
    simp only [fraction_of_delimited short h, exponent_of_delimited short h]
  rw [numeral.eq_def]
  split
  next heq =>
    -- a minus is no digit
    obtain ⟨c, cs, hcons, hdigit⟩ := exists_decimal_eq_cons n
    rw [hcons, List.cons_append] at heq
    rw [(List.cons.inj heq).1] at hdigit
    exact absurd hdigit (by decide)
  next => exact hunsigned

/-! ## Words -/

/-- Digits are all taken as long as the number stays below `2 ^ 64`. -/
theorem appendDigits_of_lt {n : Nat} {ds : List Char} (h : Nat.ofDigitChars 10 ds n < UInt64.size) :
    appendDigits n ds = (Nat.ofDigitChars 10 ds n, []) := by
  induction ds generalizing n with
  | nil => rfl
  | cons d ds ih =>
    have hlonger : Nat.ofDigitChars 10 ds (Nat.ofDigitChars 10 [d] n)
        = Nat.ofDigitChars 10 (d :: ds) n :=
      (Nat.ofDigitChars_append (l := [d]) (m := ds) n).symm
    have hle : Nat.ofDigitChars 10 [d] n ≤ Nat.ofDigitChars 10 (d :: ds) n := by
      rw [← hlonger, Nat.ofDigitChars_eq_ofDigitChars_zero (l := ds)]
      have hpos : 0 < 10 ^ ds.length := Nat.pow_pos (by decide)
      exact Nat.le_trans (Nat.le_mul_of_pos_left _ hpos) (Nat.le_add_right _ _)
    unfold appendDigits
    simp only
    rw [if_pos (Nat.lt_of_le_of_lt hle h), ih (by rw [hlonger]; exact h), hlonger]

/-- A number that fits a word, with neither point nor exponent. -/
def Numeral.ofNat (n : Nat) : Numeral :=
  ⟨false, n, 0, true⟩

theorem ofParts_decimal {n : Nat} (h : n < UInt64.size) :
    Numeral.ofParts false (decimal n) none none = Numeral.ofNat n := by
  have hvalue : Nat.ofDigitChars 10 (decimal n) 0 = n := Nat.ofDigitChars_ten_toDigits
  have hdigits : appendDigits 0 (decimal n) = (n, []) := by
    rw [appendDigits_of_lt (by rw [hvalue]; exact h), hvalue]
  unfold Numeral.ofParts
  rw [hdigits]
  rfl

/-- A double is not far from the word that it is nearest to. -/
theorem nearest_lt {n : Nat} (h : n < UInt64.size) : Double.nearest n < 2 ^ 65 := by
  have hlog : n.log2 < 64 := by
    rcases Nat.eq_zero_or_pos n with rfl | hpos
    · decide
    · exact (Nat.log2_lt (Nat.pos_iff_ne_zero.mp hpos)).mpr h
  have hunit : 2 ^ (n.log2 + 1 - Double.precision) ≤ 2 ^ 11 := by
    apply Nat.pow_le_pow_right (by decide)
    unfold Double.precision
    omega
  have hnear := (Double.toMultiple_near (Nat.two_pow_pos (n.log2 + 1 - Double.precision)) n).2
  show Double.toMultiple (2 ^ (n.log2 + 1 - Double.precision)) n < 2 ^ 65
  unfold UInt64.size at h
  omega

/-- No word is beyond the doubles. -/
theorem isHuge_ofNat {n : Nat} (h : n < UInt64.size) : (Numeral.ofNat n).isHuge = false := by
  have hbound : 2 ^ 65 ≤ Double.bound := by decide +kernel
  have hone : Double.nearest (Nat.pow 10 0) = 1 := by decide
  have hlt : Double.nearest n < Double.bound := Nat.lt_of_lt_of_le (nearest_lt h) hbound
  have hpower : ¬ (308 : Int) < 0 := by decide
  have hproduct :
      ¬ Double.bound ≤ Double.nearest n * Double.nearest (Nat.pow 10 (0 : Int).toNat) := by
    rw [Int.toNat_zero, hone, Nat.mul_one]
    exact Nat.not_le_of_lt hlt
  unfold Numeral.isHuge Numeral.ofNat
  simp only [hpower, hproduct, decide_false, Bool.or_false, Bool.and_false]

theorem word?_ofNat (w : UInt64) : (Numeral.ofNat w.toNat).word? = some w := by
  show some (UInt64.ofNat w.toNat) = some w
  rw [UInt64.ofNat_toNat]

end Registrar.Text.Json
