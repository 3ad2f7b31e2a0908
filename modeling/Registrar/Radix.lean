/-!
# Numbers in a base

A number is written as a list of digits, least significant first. `digits` writes as many as the
number has, so the last one is never zero, and `bytes` does so in base 256; `littleEndian` writes a
fixed number of bytes and cuts off what does not fit. `ofDigits` and `ofLittleEndian` read them
back.
-/

namespace Registrar.Radix

/-! ## As many digits as there are -/

/-- The digits of a number in a base above one, least significant first. Zero has none. -/
def digits (base : Nat) (h : 1 < base) (n : Nat) : List Nat :=
  if _hn : n = 0 then [] else n % base :: digits base h (n / base)
termination_by n
decreasing_by exact Nat.div_lt_self (Nat.pos_of_ne_zero _hn) h

/-- The number that digits spell, least significant first. -/
def ofDigits (base : Nat) (ds : List Nat) : Nat :=
  ds.foldr (fun d n => n * base + d) 0

/-! ## Bytes -/

/-- The bytes of a number, least significant first, as many as it has. -/
def bytes (n : Nat) : List UInt8 :=
  (digits 256 (by decide) n).map UInt8.ofNat

/-- The first `width` bytes of a number, least significant first. -/
def littleEndian : Nat → Nat → List UInt8
  | 0, _ => []
  | width + 1, n => UInt8.ofNat n :: littleEndian width (n / 256)

/-- The number that bytes spell, least significant first. -/
def ofLittleEndian (bytes : List UInt8) : Nat :=
  ofDigits 256 (bytes.map UInt8.toNat)

@[simp] theorem length_littleEndian (width n : Nat) : (littleEndian width n).length = width := by
  induction width generalizing n with
  | zero => rfl
  | succ width ih => rw [littleEndian, List.length_cons, ih]

end Registrar.Radix
