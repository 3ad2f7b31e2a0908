import Registrar.Text.Unseen

/-!
# Quoted characters and texts

Messages show a character between single quotes and a text between double quotes. Inside, the quote
of that kind, the backslash and the common controls have short escapes, and a character that would
not be seen is written by its code point, as in `\u{7f}`.
-/

namespace Registrar.Text.Quoted

/-- A character inside a pair of `quote`s. -/
def escape (quote c : Char) : List Char :=
  if c = '\x00' then ['\\', '0']
  else if c = '\t' then ['\\', 't']
  else if c = '\n' then ['\\', 'n']
  else if c = '\r' then ['\\', 'r']
  else if c = '\\' || c = quote then ['\\', c]
  else if isUnseen c then
    ['\\', 'u', '\x7b'] ++ (Nat.toDigits 16 c.toNat) ++ ['\x7d']
  else [c]

/-- A character between single quotes. -/
def character (c : Char) : String :=
  String.ofList ('\x27' :: escape '\x27' c ++ ['\x27'])

/-- A text between double quotes. -/
def text (s : String) : String :=
  String.ofList ('"' :: s.toList.flatMap (escape '"') ++ ['"'])

/-- The character of a single byte of some other encoding: bytes are code points below 256. -/
def byte (b : UInt8) : String :=
  character (Char.ofNat b.toNat)

end Registrar.Text.Quoted
