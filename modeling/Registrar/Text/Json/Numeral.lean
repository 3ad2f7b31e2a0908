import Registrar.Double
import Registrar.Text.Json.Token

/-!
# Numbers in JSON

A number has a sign, digits, a point with digits after it, and an exponent; all but the first digits
may be left out. It is read into a 64-bit word and a power of ten: the word takes the digits as long
as they fit. Of the digits before the point that no longer fit, each counts as one power of ten;
those after the point are dropped.
-/

namespace Registrar.Text.Json

/-- A number by its sign, its leading digits, and the power of ten that they stand at. A number with
neither point nor exponent is whole. -/
structure Numeral where
  negative : Bool
  leading : Nat
  power : Int
  whole : Bool
  deriving DecidableEq, Repr

/-- Whether a number lies beyond the range of a double, so that no number type holds it. Its leading
digits and the power of ten are each rounded before they are multiplied, and `10 ^ 308` is the
largest power of ten that is a double. -/
def Numeral.isHuge (n : Numeral) : Bool :=
  n.leading ≠ 0 && 0 ≤ n.power
    && (308 < n.power
      || Double.bound ≤ Double.nearest n.leading * Double.nearest (Nat.pow 10 n.power.toNat))

/-! ## Leading digits -/

/-- Takes digits to the end of a number as long as it stays below `2 ^ 64`, and gives it with the
digits that are left. -/
def appendDigits (n : Nat) : List Char → Nat × List Char
  | [] => (n, [])
  | c :: cs =>
    let longer := Nat.ofDigitChars 10 [c] n
    if longer < UInt64.size then appendDigits longer cs else (n, c :: cs)

/-- The number that is written with these digits before the point, these after it, if there is a
point, and this exponent, if there is one. -/
def Numeral.ofParts (negative : Bool) (ds : List Char) (places : Option (List Char))
    (exponent : Option Int) : Numeral :=
  let (n, excess) := appendDigits 0 ds
  let (n, dropped) := appendDigits n (places.getD [])
  { negative
    leading := n
    power := excess.length + dropped.length - (places.getD []).length + exponent.getD 0
    whole := places.isNone && exponent.isNone }

/-- The word that a number is, if it is whole, has no sign and fits. -/
def Numeral.word? (n : Numeral) : Option UInt64 :=
  if n.whole && !n.negative && n.power = 0 then some (UInt64.ofNat n.leading) else none

/-! ## The parts of a number -/

/-- Takes off one or more digits; where there is none, `short` says what it means that the text
ends. -/
def someDigits (short : Fault) (s : List Char) : Taken (List Char) :=
  let ds := s.takeWhile Char.isDigit
  let rest := s.dropWhile Char.isDigit
  if ds.isEmpty then .error (if rest.isEmpty then short else .malformed) else .ok (ds, rest)

theorem length_lt_of_someDigits {short : Fault} {s ds rest : List Char}
    (h : someDigits short s = .ok (ds, rest)) : rest.length < s.length := by
  simp only [someDigits] at h
  split at h
  · cases h
  next hne =>
    cases h
    have parts := congrArg List.length (@List.takeWhile_append_dropWhile _ Char.isDigit s)
    have pos := List.length_pos_iff.mpr (mt List.isEmpty_iff.mpr hne)
    rw [List.length_append] at parts
    omega

/-- Takes off the digits before the point. A zero stands alone. -/
def wholeDigits (short : Fault) (s : List Char) : Taken (List Char) :=
  match someDigits short s with
  | .error e => .error e
  | .ok ('0' :: _ :: _, _) => .error .malformed
  | .ok taken => .ok taken

theorem length_lt_of_wholeDigits {short : Fault} {s ds rest : List Char}
    (h : wholeDigits short s = .ok (ds, rest)) : rest.length < s.length := by
  rw [wholeDigits] at h
  split at h
  · cases h
  · cases h
  next hs =>
    cases h
    exact length_lt_of_someDigits hs

/-- Takes off a point and the digits after it, if there is one. -/
def fraction (short : Fault) (s : List Char) : Taken (Option (List Char)) :=
  match s with
  | '.' :: rest =>
    match someDigits short rest with
    | .error e => .error e
    | .ok (ds, rest) => .ok (some ds, rest)
  | _ => .ok (none, s)

theorem length_le_of_fraction {short : Fault} {s rest : List Char} {ds : Option (List Char)}
    (h : fraction short s = .ok (ds, rest)) : rest.length ≤ s.length := by
  rw [fraction.eq_def] at h
  split at h
  · split at h
    · cases h
    next hs =>
      cases h
      have lt := length_lt_of_someDigits hs
      rw [List.length_cons]
      omega
  · cases h
    exact Nat.le_refl _

/-- Takes off a sign, and tells whether it is a minus. -/
def sign : List Char → Bool × List Char
  | '+' :: rest => (false, rest)
  | '-' :: rest => (true, rest)
  | s => (false, s)

theorem length_sign_le (s : List Char) : (sign s).2.length ≤ s.length := by
  rw [sign.eq_def]
  split <;> simp

/-- Takes off an exponent after its letter. -/
def exponentValue (short : Fault) (s : List Char) : Taken Int :=
  match someDigits short (sign s).2 with
  | .error e => .error e
  | .ok (ds, rest) =>
    let n : Int := Nat.ofDigitChars 10 ds 0
    .ok (if (sign s).1 then -n else n, rest)

/-- Takes off an exponent, if there is one. -/
def exponent (short : Fault) (s : List Char) : Taken (Option Int) :=
  match s with
  | c :: rest =>
    if c = 'e' || c = 'E' then
      match exponentValue short rest with
      | .error e => .error e
      | .ok (n, rest) => .ok (some n, rest)
    else .ok (none, c :: rest)
  | [] => .ok (none, [])

theorem length_le_of_exponent {short : Fault} {s rest : List Char} {n : Option Int}
    (h : exponent short s = .ok (n, rest)) : rest.length ≤ s.length := by
  rw [exponent.eq_def] at h
  split at h
  next c r =>
    split at h
    · split at h
      · cases h
      next hv =>
        cases h
        rw [exponentValue] at hv
        split at hv
        · cases hv
        next hs =>
          cases hv
          have lt := length_lt_of_someDigits hs
          have le := length_sign_le r
          rw [List.length_cons]
          omega
    · cases h
      exact Nat.le_refl _
  · cases h
    exact Nat.le_refl _

/-- Takes off a number after its sign. -/
def unsigned (short : Fault) (negative : Bool) (s : List Char) : Taken Numeral :=
  match wholeDigits short s with
  | .error e => .error e
  | .ok (ds, rest) =>
    match fraction short rest with
    | .error e => .error e
    | .ok (ps, rest) =>
      match exponent short rest with
      | .error e => .error e
      | .ok (x, rest) => .ok (.ofParts negative ds ps x, rest)

theorem length_lt_of_unsigned {short : Fault} {negative : Bool} {s rest : List Char} {n : Numeral}
    (h : unsigned short negative s = .ok (n, rest)) : rest.length < s.length := by
  rw [unsigned] at h
  split at h
  · cases h
  next hw =>
    split at h
    · cases h
    next hf =>
      split at h
      · cases h
      next hx =>
        cases h
        have lt := length_lt_of_wholeDigits hw
        have le := length_le_of_fraction hf
        have le' := length_le_of_exponent hx
        omega

/-- Takes off a number; `short` says what it means that the text ends inside it. -/
def numeral (short : Fault) (s : List Char) : Taken Numeral :=
  match s with
  | '-' :: rest => unsigned short true rest
  | _ => unsigned short false s

theorem length_lt_of_numeral {short : Fault} {s rest : List Char} {n : Numeral}
    (h : numeral short s = .ok (n, rest)) : rest.length < s.length := by
  rw [numeral.eq_def] at h
  split at h
  · have lt := length_lt_of_unsigned h
    rw [List.length_cons]
    omega
  · exact length_lt_of_unsigned h

/-- Whether a number may begin with this character. -/
def beginsNumeral (c : Char) : Bool :=
  c = '-' || c.isDigit

end Registrar.Text.Json
