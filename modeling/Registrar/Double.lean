/-!
# Whole numbers as doubles

A double keeps the first 53 binary digits of a whole number. `nearest` is the double nearest to a
whole number, and `bound` the least number that rounds beyond all doubles.
-/

namespace Registrar.Double

/-- How many binary digits a double keeps. -/
def precision : Nat := 53

/-- The multiple of `unit` that is nearest to a number; halfway between two, the even multiple. -/
def toMultiple (unit n : Nat) : Nat :=
  let q := n / unit
  let r := n % unit
  if unit < 2 * r || (2 * r = unit && q % 2 = 1) then (q + 1) * unit else q * unit

/-- A number is at most half a unit away from the multiple it is rounded to. -/
theorem toMultiple_near {unit : Nat} (h : 0 < unit) (n : Nat) :
    2 * n ≤ 2 * toMultiple unit n + unit ∧ 2 * toMultiple unit n ≤ 2 * n + unit := by
  have parts := Nat.div_add_mod' n unit
  have lt := Nat.mod_lt n h
  simp only [toMultiple]
  split
  next up =>
    have above := Nat.add_one_mul (n / unit) unit
    have half : unit ≤ 2 * (n % unit) := by
      simp only [Bool.or_eq_true, Bool.and_eq_true, decide_eq_true_eq] at up
      omega
    omega
  next down =>
    have half : 2 * (n % unit) ≤ unit := by
      simp only [Bool.or_eq_true, Bool.and_eq_true, decide_eq_true_eq] at down
      omega
    omega

/-- The double nearest to a whole number, however large: its unit is that of the last binary digit
that is kept. -/
def nearest (n : Nat) : Nat :=
  toMultiple (Nat.pow 2 (n.log2 + 1 - precision)) n

/-- The first number beyond the doubles: it lies halfway between the largest double and `2 ^ 1024`,
and goes to the even neighbour. -/
def bound : Nat := Nat.pow 2 1024 - Nat.pow 2 970

end Registrar.Double
