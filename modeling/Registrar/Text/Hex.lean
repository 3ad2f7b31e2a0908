import Registrar.Text.Quoted

/-!
# Hexadecimal text

Bytes are written as two lower-case digits each. Reading takes digits of either case, two to a byte,
and refuses anything else: an odd number of digits before any bad digit, and then the first bad
digit in the order of the text. Positions and lengths count the bytes of the text's UTF-8 form, so a
text with a wide character is refused at that character's first byte.
-/

namespace Registrar.Text.Hex

/-! ## Writing -/

/-- The lower-case digit of a value below sixteen. -/
def digit (n : Nat) : Char :=
  if n < 10 then Char.ofNat (48 + n) else Char.ofNat (87 + n)

/-- The two digits of a byte, high half first. -/
def pair (b : UInt8) : List Char :=
  [digit (b.toNat / 16), digit (b.toNat % 16)]

/-- The digits of a byte string. -/
def digits (bytes : List UInt8) : List Char :=
  bytes.flatMap pair

/-- A byte string as lower-case hexadecimal text. -/
def encode (bytes : List UInt8) : String :=
  String.ofList (digits bytes)

/-- Each byte takes two digits. -/
theorem length_digits (bytes : List UInt8) : (digits bytes).length = 2 * bytes.length := by
  induction bytes with
  | nil => rfl
  | cons b bs ih =>
    simp only [digits, List.flatMap_cons, List.length_append, List.length_cons] at ih ⊢
    rw [ih]
    simp only [pair, List.length_cons, List.length_nil]
    omega

/-- A number in lower-case hexadecimal, filled with zeros to at least `width` digits. -/
def number (width n : Nat) : String :=
  let ds := Nat.toDigits 16 n
  String.ofList (List.replicate (width - ds.length) '0' ++ ds)

/-! ## Reading -/

/-- Why a text is not hexadecimal. -/
inductive Error where
  /-- The text has an odd number of bytes, so they do not pair up. -/
  | oddLength
  /-- The byte at this position is no digit. -/
  | invalidDigit (byte : UInt8) (position : Nat)
  deriving DecidableEq, Repr

/-- The message of a refused text. -/
def Error.message : Error → String
  | .oddLength => "Odd number of digits"
  | .invalidDigit byte position =>
    "Invalid character " ++ Quoted.byte byte ++ " at position " ++ toString position

/-- The value of the digit, of either case, that has this code point. -/
def value? (n : Nat) : Option Nat :=
  if 48 ≤ n ∧ n ≤ 57 then some (n - 48)
  else if 65 ≤ n ∧ n ≤ 70 then some (n - 55)
  else if 97 ≤ n ∧ n ≤ 102 then some (n - 87)
  else none

/-- Reads digits pair by pair; `position` is where the first of them stands in the whole text. -/
def decodePairs (position : Nat) : List UInt8 → Except Error (List UInt8)
  | [] => .ok []
  | [_] => .error .oddLength
  | hi :: lo :: rest =>
    match value? hi.toNat, value? lo.toNat with
    | some h, some l => do
      let bytes ← decodePairs (position + 2) rest
      return UInt8.ofNat (16 * h + l) :: bytes
    | none, _ => .error (.invalidDigit hi position)
    | some _, none => .error (.invalidDigit lo (position + 1))

/-- Reads the UTF-8 bytes of a hexadecimal text. The length is looked at before any digit. -/
def decodeBytes (text : List UInt8) : Except Error (List UInt8) :=
  if text.length % 2 = 1 then .error .oddLength else decodePairs 0 text

/-- Reads hexadecimal text. -/
def decode (text : String) : Except Error (List UInt8) :=
  decodeBytes text.toUTF8.data.toList

end Registrar.Text.Hex
