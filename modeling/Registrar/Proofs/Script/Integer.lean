import Mathlib
import Registrar.Proofs.Radix
import Registrar.Script.Builder

/-!
# The signed form of a number

A number is pushed as the bytes that it has, and one more zero where the highest bit would read as a
sign. So the form spells the number, its sign bit is always clear, and it has one more byte for each
factor of 256 from 128 on. No shorter bytes spell the number with a sign.
-/

namespace Registrar.Script.Build

/-! ## The form by recursion -/

@[simp] theorem signedDigits_zero : signedDigits 0 = [] := by
  unfold signedDigits
  rw [Radix.bytes_zero]
  rfl

theorem bytes_of_lt {n : Nat} (h0 : n ≠ 0) (h : n < 256) : Radix.bytes n = [UInt8.ofNat n] := by
  rw [Radix.bytes_of_ne_zero h0, Nat.div_eq_of_lt h, Radix.bytes_zero]

theorem signedDigits_of_lt_128 {n : Nat} (h0 : n ≠ 0) (h : n < 128) :
    signedDigits n = [UInt8.ofNat n] := by
  have hbyte : (UInt8.ofNat n).toNat = n := by
    rw [UInt8.toNat_ofNat']
    omega
  unfold signedDigits
  rw [bytes_of_lt h0 (by omega)]
  simp only [List.getLast?_singleton, hbyte]
  rw [if_neg (by omega)]

theorem signedDigits_of_lt_256 {n : Nat} (h128 : 128 ≤ n) (h : n < 256) :
    signedDigits n = [UInt8.ofNat n, 0] := by
  have hbyte : (UInt8.ofNat n).toNat = n := by
    rw [UInt8.toNat_ofNat']
    omega
  unfold signedDigits
  rw [bytes_of_lt (by omega) h]
  simp only [List.getLast?_singleton, hbyte]
  rw [if_pos h128]
  rfl

/-- The low byte of a number above one byte has no part in the sign. -/
theorem signedDigits_of_ge {n : Nat} (h : 256 ≤ n) :
    signedDigits n = UInt8.ofNat n :: signedDigits (n / 256) := by
  obtain ⟨b, hb⟩ : ∃ b, (Radix.bytes (n / 256)).getLast? = some b := by
    rw [Radix.bytes_of_ne_zero (by omega), List.getLast?_cons]
    exact ⟨_, rfl⟩
  unfold signedDigits
  rw [Radix.bytes_of_ne_zero (show n ≠ 0 by omega)]
  simp only [List.getLast?_cons, hb, Option.getD_some]
  split_ifs <;> rfl

/-- Only zero has an empty form. -/
theorem signedDigits_ne_nil {n : Nat} (h : n ≠ 0) : signedDigits n ≠ [] := by
  unfold signedDigits
  rw [Radix.bytes_of_ne_zero h]
  simp only [List.getLast?_cons]
  split_ifs <;> simp

/-- What holds of one byte, of one byte and a zero, and with one more low byte holds of every form. -/
theorem signedDigits_induction {motive : Nat → List UInt8 → Prop} (zero : motive 0 [])
    (low : ∀ n, n ≠ 0 → n < 128 → motive n [UInt8.ofNat n])
    (high : ∀ n, 128 ≤ n → n < 256 → motive n [UInt8.ofNat n, 0])
    (more : ∀ n ds, 256 ≤ n → ds ≠ [] → motive (n / 256) ds → motive n (UInt8.ofNat n :: ds))
    (n : Nat) :
    motive n (signedDigits n) := by
  induction n using Nat.strongRecOn with
  | ind n ih =>
    -- a zero byte follows exactly where the last byte is 128 or more
    by_cases h0 : n = 0
    · rw [h0, signedDigits_zero]
      exact zero
    by_cases h128 : n < 128
    · rw [signedDigits_of_lt_128 h0 h128]
      exact low n h0 h128
    by_cases h256 : n < 256
    · rw [signedDigits_of_lt_256 (by omega) h256]
      exact high n (by omega) h256
    rw [signedDigits_of_ge (by omega)]
    exact more n _ (by omega) (signedDigits_ne_nil (by omega)) (ih (n / 256) (by omega))

/-! ## What the form says -/

/-- The form spells the number. -/
theorem ofLittleEndian_signedDigits (n : Nat) : Radix.ofLittleEndian (signedDigits n) = n := by
  refine signedDigits_induction (motive := fun n ds => Radix.ofLittleEndian ds = n) rfl ?_ ?_ ?_ n
  · intro n _ h
    rw [Radix.ofLittleEndian_cons, Radix.ofLittleEndian_nil, UInt8.toNat_ofNat']
    omega
  · intro n _ h
    simp only [Radix.ofLittleEndian_cons, Radix.ofLittleEndian_nil, UInt8.toNat_ofNat']
    show (0 * 256 + 0) * 256 + n % 256 = n
    omega
  · intro n ds _ _ ih
    rw [Radix.ofLittleEndian_cons, ih, UInt8.toNat_ofNat']
    exact Nat.div_add_mod' n 256

/-- The sign bit of the form is clear. -/
theorem lt_128_of_getLast?_signedDigits {n : Nat} {b : UInt8}
    (h : (signedDigits n).getLast? = some b) : b.toNat < 128 := by
  revert h
  refine signedDigits_induction
    (motive := fun _ ds => ds.getLast? = some b → b.toNat < 128) ?_ ?_ ?_ ?_ n
  · intro h
    cases h
  · intro n _ hn h
    have hb : UInt8.ofNat n = b := Option.some.inj h
    rw [← hb, UInt8.toNat_ofNat']
    omega
  · intro n _ _ h
    have hb : 0 = b := Option.some.inj h
    rw [← hb]
    decide
  · intro n ds _ hds ih h
    rw [List.getLast?_cons_of_ne_nil hds] at h
    exact ih h

/-- How many bytes the form has. -/
theorem length_signedDigits_le_iff (n k : Nat) :
    (signedDigits n).length ≤ k + 1 ↔ n < 128 * 256 ^ k := by
  revert k
  refine signedDigits_induction
    (motive := fun n ds => ∀ k, ds.length ≤ k + 1 ↔ n < 128 * 256 ^ k) ?_ ?_ ?_ ?_ n
  · intro k
    have hpow : 0 < 256 ^ k := Nat.pow_pos (by omega)
    simp only [List.length_nil]
    omega
  · intro n _ hn k
    have hpow : 0 < 256 ^ k := Nat.pow_pos (by omega)
    simp only [List.length_singleton]
    omega
  · intro n hlow hhigh k
    cases k with
    | zero =>
      simp only [List.length_cons, List.length_nil]
      omega
    | succ k =>
      have hpow : 0 < 256 ^ k := Nat.pow_pos (by omega)
      simp only [List.length_cons, List.length_nil, Nat.pow_succ]
      omega
  · intro n ds hn hds ih k
    cases k with
    | zero =>
      have hlength : 0 < ds.length := List.length_pos_iff.mpr hds
      simp only [List.length_cons]
      omega
    | succ k =>
      rw [List.length_cons, Nat.pow_succ]
      have hrest := ih k
      omega

/-! ## Two's complement -/

/-- In two's complement too the form spells the number. -/
theorem ofTwosComplement_signedDigits (n : Nat) : Radix.ofTwosComplement (signedDigits n) = n := by
  rw [Radix.ofTwosComplement_of_clear fun b hb => lt_128_of_getLast?_signedDigits hb,
    ofLittleEndian_signedDigits]

/-- **No shorter form spells the number.** -/
theorem length_signedDigits_le {n : Nat} {bytes : List UInt8}
    (h : Radix.ofTwosComplement bytes = n) : (signedDigits n).length ≤ bytes.length := by
  have hlt := Radix.two_mul_ofTwosComplement_lt bytes
  rw [h] at hlt
  norm_cast at hlt
  cases bytes with
  | nil =>
    have hn : n = 0 := by
      rw [List.length_nil, Nat.pow_zero] at hlt
      omega
    rw [hn, signedDigits_zero]
  | cons b bytes =>
    apply (length_signedDigits_le_iff n bytes.length).mpr
    rw [List.length_cons, Nat.pow_succ] at hlt
    omega

end Registrar.Script.Build
