import Mathlib
import Registrar.Radix

/-!
# Numbers and their bytes

A fixed number of bytes that is enough for a number spells it, and bytes are what the number that
they spell is written as. The bytes that a number has are its lowest byte and then those of the
rest. Digits with zeros in front of them say two things, the number and how many zeros there are, and
these two say what the digits are. How often a number holds a power of the base tells its first digit
and how many there are. In two's complement bytes spell a number with a sign, which is their highest
bit.
-/

namespace Registrar.Radix

/-! ## Reading -/

@[simp] theorem ofLittleEndian_nil : ofLittleEndian [] = 0 := rfl

@[simp] theorem ofLittleEndian_cons (b : UInt8) (bytes : List UInt8) :
    ofLittleEndian (b :: bytes) = ofLittleEndian bytes * 256 + b.toNat := rfl

/-! ## A fixed number of bytes -/

/-- As many bytes as a number needs spell it. -/
theorem ofLittleEndian_littleEndian {width n : Nat} (h : n < 256 ^ width) :
    ofLittleEndian (littleEndian width n) = n := by
  induction width generalizing n with
  | zero =>
    have hn : n = 0 := by simpa using h
    rw [hn]
    rfl
  | succ width ih =>
    have hrest : n / 256 < 256 ^ width := by
      rw [Nat.pow_succ] at h
      exact Nat.div_lt_of_lt_mul (by rwa [Nat.mul_comm])
    rw [littleEndian, ofLittleEndian_cons, ih hrest, UInt8.toNat_ofNat']
    exact Nat.div_add_mod' n 256

/-- Bytes spell a number that as many bytes can hold. -/
theorem ofLittleEndian_lt (bytes : List UInt8) : ofLittleEndian bytes < 256 ^ bytes.length := by
  induction bytes with
  | nil => exact Nat.one_pos
  | cons b bytes ih =>
    have hb : b.toNat < 256 := b.toNat_lt
    rw [ofLittleEndian_cons, List.length_cons, Nat.pow_succ]
    omega

/-- Bytes are what the number that they spell is written as. -/
theorem littleEndian_ofLittleEndian (bytes : List UInt8) :
    littleEndian bytes.length (ofLittleEndian bytes) = bytes := by
  induction bytes with
  | nil => rfl
  | cons b bytes ih =>
    have hb : b.toNat < 256 := b.toNat_lt
    have hlow : UInt8.ofNat (ofLittleEndian bytes * 256 + b.toNat) = b := by
      apply UInt8.toNat_inj.mp
      rw [UInt8.toNat_ofNat']
      omega
    have hrest : (ofLittleEndian bytes * 256 + b.toNat) / 256 = ofLittleEndian bytes := by omega
    rw [ofLittleEndian_cons, List.length_cons, littleEndian, hlow, hrest, ih]

/-! ## As many bytes as there are -/

@[simp] theorem bytes_zero : bytes 0 = [] := by
  unfold bytes
  rw [digits]
  rfl

theorem bytes_of_ne_zero {n : Nat} (h : n ≠ 0) : bytes n = UInt8.ofNat n :: bytes (n / 256) := by
  unfold bytes
  rw [digits, dif_neg h, List.map_cons]
  congr 1
  apply UInt8.toNat_inj.mp
  rw [UInt8.toNat_ofNat', UInt8.toNat_ofNat']
  exact Nat.mod_mod n 256

/-! ## The digits of the standard library -/

theorem digits_eq (base : Nat) (h : 1 < base) (n : Nat) : digits base h n = Nat.digits base n := by
  induction n using Nat.strong_induction_on with
  | _ n ih =>
    rw [digits]
    by_cases hn : n = 0
    · rw [dif_pos hn, hn, Nat.digits_zero]
    · have hpos : 0 < n := Nat.pos_of_ne_zero hn
      rw [dif_neg hn, ih (n / base) (Nat.div_lt_self hpos h), Nat.digits_def' h hpos]

theorem ofDigits_eq (base : Nat) (ds : List Nat) : ofDigits base ds = Nat.ofDigits base ds := by
  induction ds with
  | nil => rfl
  | cons d ds ih =>
    rw [Nat.ofDigits_cons, ← ih, Nat.mul_comm, Nat.add_comm]
    rfl

/-- Bytes with one more behind them spell what they spell alone, and as often as that byte says the
power that they leave room for. -/
theorem ofLittleEndian_concat (bytes : List UInt8) (b : UInt8) :
    ofLittleEndian (bytes ++ [b]) = b.toNat * 256 ^ bytes.length + ofLittleEndian bytes := by
  unfold ofLittleEndian
  rw [List.map_append, List.map_singleton, ofDigits_eq, Nat.ofDigits_append, List.length_map,
    Nat.ofDigits_singleton, ofDigits_eq]
  ring

/-! ## Zeros in front -/

/-- How many zeros digits begin with. -/
def zeros (ds : List Nat) : Nat :=
  (ds.takeWhile (· = 0)).length

/-- The digits of a number, most significant first, with zeros in front of them. -/
def numeral (base : Nat) (h : 1 < base) (zeros n : Nat) : List Nat :=
  List.replicate zeros 0 ++ (digits base h n).reverse

variable {base : Nat} {h : 1 < base}

theorem lt_of_mem_numeral {k n d : Nat} (hd : d ∈ numeral base h k n) : d < base := by
  rcases List.mem_append.mp hd with hd | hd
  · rw [List.eq_of_mem_replicate hd]
    exact Nat.zero_lt_of_lt h
  · rw [List.mem_reverse, digits_eq] at hd
    exact Nat.digits_lt_base h hd

/-- The zeros in front are counted, for the number's own digits do not begin with zero. -/
theorem zeros_numeral (k n : Nat) : zeros (numeral base h k n) = k := by
  have hdigits : (digits base h n).reverse.takeWhile (· = 0) = [] := by
    rw [List.takeWhile_eq_nil_iff]
    intro hlen
    have hne : Nat.digits base n ≠ [] := by
      rw [← digits_eq base h]
      exact List.ne_nil_of_length_pos (by rwa [List.length_reverse] at hlen)
    have hlast := Nat.getLast_digit_ne_zero base (Nat.digits_ne_nil_iff_ne_zero.mp hne)
    simpa [digits_eq, List.getLast_eq_getElem] using hlast
  have hzeros : ∀ d ∈ List.replicate k 0, decide (d = 0) = true := fun d hd => by
    rw [List.eq_of_mem_replicate hd]
    rfl
  unfold zeros numeral
  rw [List.takeWhile_append_of_pos hzeros, hdigits, List.append_nil, List.length_replicate]

/-- Zeros in front do not change the number. -/
theorem ofDigits_numeral (k n : Nat) : ofDigits base (numeral base h k n).reverse = n := by
  unfold numeral
  rw [List.reverse_append, List.reverse_reverse, List.reverse_replicate, ofDigits_eq, digits_eq,
    Nat.ofDigits_append_replicate_zero, Nat.ofDigits_digits]

/-- Digits are what the number that they spell is written as, with as many zeros in front. -/
theorem numeral_zeros {ds : List Nat} (hds : ∀ d ∈ ds, d < base) :
    numeral base h (zeros ds) (ofDigits base ds.reverse) = ds := by
  have hfront : List.replicate (zeros ds) 0 = ds.takeWhile (· = 0) := by
    symm
    rw [List.eq_replicate_iff]
    exact ⟨rfl, fun d hd => by simpa using List.mem_takeWhile_imp hd⟩
  have hsplit : ds = List.replicate (zeros ds) 0 ++ ds.dropWhile (· = 0) := by
    rw [hfront, List.takeWhile_append_dropWhile]
  have hrest : digits base h (ofDigits base ds.reverse) = (ds.dropWhile (· = 0)).reverse := by
    conv_lhs => rw [hsplit]
    rw [List.reverse_append, List.reverse_replicate, ofDigits_eq, digits_eq,
      Nat.ofDigits_append_replicate_zero]
    apply Nat.digits_ofDigits base h
    · intro d hd
      exact hds d (List.dropWhile_sublist _ |>.mem (List.mem_reverse.mp hd))
    · intro hne
      rw [List.getLast_reverse]
      simpa using List.head_dropWhile_not (fun d : Nat => d = 0) (List.reverse_ne_nil_iff.mp hne)
  unfold numeral
  rw [hrest, List.reverse_reverse, ← hsplit]

/-! ## The first digit -/

/-- A number that holds a power of the base `d` times, for a digit `d` that is not zero, is written
with `d` in front and as many digits behind it as the exponent says. -/
theorem exists_digits_of_div {k n d : Nat} (hn : n / base ^ k = d) (hpos : 0 < d) (hd : d < base) :
    ∃ rest, (digits base h n).reverse = d :: rest ∧ rest.length = k := by
  induction k generalizing n with
  | zero =>
    rw [Nat.pow_zero, Nat.div_one] at hn
    subst hn
    rw [digits, dif_neg (by omega), Nat.mod_eq_of_lt hd, Nat.div_eq_of_lt hd, digits, dif_pos rfl]
    exact ⟨[], rfl, rfl⟩
  | succ k ih =>
    have hne : n ≠ 0 := by
      rintro rfl
      rw [Nat.zero_div] at hn
      omega
    have hrest : n / base / base ^ k = d := by
      rw [Nat.div_div_eq_div_mul, ← Nat.pow_succ', hn]
    obtain ⟨rest, hdigits, hlength⟩ := ih hrest
    refine ⟨rest ++ [n % base], ?_, ?_⟩
    · rw [digits, dif_neg hne, List.reverse_cons, hdigits, List.cons_append]
    · rw [List.length_append, hlength, List.length_singleton]

/-! ## Two's complement -/

/-- The number that bytes spell in two's complement, least significant first: of the numbers that
differ from what they spell without a sign by a multiple of the power that they leave room for, the one
in the range around zero that is half negative. -/
def ofTwosComplement (bytes : List UInt8) : Int :=
  (ofLittleEndian bytes : Int).bmod (256 ^ bytes.length)

example : ofTwosComplement [0x80] = -128 ∧ ofTwosComplement [0x80, 0x00] = 128 := by decide

/-- Bytes whose highest bit is clear spell less than half of what they have room for. -/
theorem two_mul_ofLittleEndian_lt {bytes : List UInt8}
    (h : ∀ b, bytes.getLast? = some b → b.toNat < 128) :
    2 * ofLittleEndian bytes < 256 ^ bytes.length := by
  rcases List.eq_nil_or_concat' bytes with rfl | ⟨front, b, rfl⟩
  · decide
  · have hb : b.toNat < 128 := h b (by simp)
    have hfront : ofLittleEndian front < 256 ^ front.length := ofLittleEndian_lt front
    have hhigh : b.toNat * 256 ^ front.length ≤ 127 * 256 ^ front.length :=
      Nat.mul_le_mul_right _ (by omega)
    rw [ofLittleEndian_concat, List.length_append, List.length_singleton, Nat.pow_succ]
    omega

/-- Where the highest bit is clear, the sign makes no difference. -/
theorem ofTwosComplement_of_clear {bytes : List UInt8}
    (h : ∀ b, bytes.getLast? = some b → b.toNat < 128) :
    ofTwosComplement bytes = ofLittleEndian bytes := by
  have hlt : 2 * ofLittleEndian bytes < 256 ^ bytes.length := two_mul_ofLittleEndian_lt h
  unfold ofTwosComplement
  apply Int.bmod_eq_of_le_mul_two <;> omega

/-- Less than half of the numbers that bytes have room for are positive. -/
theorem two_mul_ofTwosComplement_lt (bytes : List UInt8) :
    2 * ofTwosComplement bytes < 256 ^ bytes.length := by
  have hlt := Int.bmod_lt (x := ofLittleEndian bytes) (Nat.pow_pos (n := bytes.length)
    (show 0 < 256 by omega))
  unfold ofTwosComplement
  generalize (ofLittleEndian bytes : Int).bmod (256 ^ bytes.length) = x at hlt ⊢
  cases bytes with
  | nil =>
    simp only [List.length_nil, Nat.pow_zero] at hlt ⊢
    omega
  | cons b bytes =>
    simp only [List.length_cons, pow_succ] at hlt ⊢
    push_cast at hlt ⊢
    omega

end Registrar.Radix
