import Registrar.Radix
import Registrar.Text.Quoted

/-!
# Base58

A byte string is read as one big-endian number and written in base 58, in an alphabet that leaves
out characters that look alike. The number does not see leading zero bytes, so each of them is
written as one leading `1`, the digit of value zero. Reading undoes both steps; it refuses the first
character outside the alphabet.
-/

namespace Registrar.Text.Base58

/-- The digits in the order of their values. -/
def alphabet : List Char :=
  "123456789ABCDEFGHJKLMNPQRSTUVWXYZabcdefghijkmnopqrstuvwxyz".toList

/-! ## Writing -/

/-- The character of a digit value. -/
def charOf (d : Nat) : Char :=
  alphabet.getD d '1'

/-- A byte string in base 58. -/
def encodeChars (bytes : List UInt8) : List Char :=
  let zeros := (bytes.takeWhile (· = 0)).length
  List.replicate zeros '1'
    ++ (Radix.digits 58 (by decide) (Radix.ofLittleEndian bytes.reverse)).reverse.map charOf

/-- A byte string as Base58 text. -/
def encode (bytes : List UInt8) : String :=
  String.ofList (encodeChars bytes)

/-! ## Reading -/

/-- Why a text is not Base58. -/
inductive Error where
  /-- The byte at this position is no digit of the alphabet. -/
  | invalidCharacter (byte : UInt8) (position : Nat)
  /-- The byte at this position is not even ASCII. -/
  | nonAscii (position : Nat)
  deriving DecidableEq, Repr

/-- The message of a refused text. -/
def Error.message : Error → String
  | .invalidCharacter byte position =>
    "provided string contained invalid character " ++ Quoted.byte byte ++ " at byte "
      ++ toString position
  | .nonAscii position =>
    "provided string contained non-ascii character starting at byte " ++ toString position

/-- The value of a digit. -/
def valueOf? (c : Char) : Option Nat :=
  alphabet.idxOf? c

/-- The values of the digits of a text, given as its UTF-8 bytes from `position` on. -/
def digitValues (position : Nat) : List UInt8 → Except Error (List Nat)
  | [] => .ok []
  | b :: rest =>
    if 127 < b.toNat then .error (.nonAscii position)
    else
      match valueOf? (Char.ofNat b.toNat) with
      | none => .error (.invalidCharacter b position)
      | some d => do
        let ds ← digitValues (position + 1) rest
        return d :: ds

/-- The byte string that digits spell: a zero byte for each leading zero digit, and then the bytes
of the number. -/
def ofDigitValues (ds : List Nat) : List UInt8 :=
  let zeros := (ds.takeWhile (· = 0)).length
  List.replicate zeros 0 ++ (Radix.bytes (Radix.ofDigits 58 ds.reverse)).reverse

/-- Reads Base58 text. -/
def decode (text : String) : Except Error (List UInt8) := do
  let ds ← digitValues 0 text.toUTF8.data.toList
  return ofDigitValues ds

end Registrar.Text.Base58
