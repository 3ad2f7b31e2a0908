/-!
# UTF-8 text in byte strings

Operands and names are byte strings that may or may not be text. `decode?` is the strict reading: it
succeeds on well-formed UTF-8 alone. `decodeLossy` always succeeds and writes one replacement
character for each maximal part of an ill-formed sequence: the longest stretch that some well-formed
character begins with, or one byte where there is none.
-/

namespace Registrar.Text.Utf8

/-- The UTF-8 bytes of a text. -/
def encode (text : String) : List UInt8 :=
  text.toUTF8.data.toList

/-- The text a byte string spells, when it is well-formed UTF-8. -/
def decode? (bytes : List UInt8) : Option String :=
  String.fromUTF8? ⟨bytes.toArray⟩

/-! ## The lossy reading

One pass over the bytes. Between characters nothing is owed; inside one, the decoder holds the bits
read so far, how many continuation bytes are owed, and the range the next one must lie in. The range
is narrower than `0x80..0xBF` only for the second byte, where it keeps out overlong forms,
surrogates and code points above `0x10FFFF`; so every completed character is a scalar value. -/

/-- A character that has begun: `bits` of it are read and `owed + 1` bytes are missing, the next of
which lies between `low` and `high`. -/
structure Pending where
  bits : Nat
  owed : Nat
  low : Nat
  high : Nat
  deriving DecidableEq, Repr

/-- What a byte between characters does: it is a character, begins one, or is ill-formed. -/
inductive Lead where
  | whole (c : Char)
  | begins (p : Pending)
  | illFormed
  deriving DecidableEq, Repr

/-- Reads the first byte of a character. -/
def lead (b : UInt8) : Lead :=
  let n := b.toNat
  if n < 0x80 then .whole (Char.ofNat n)
  else if n < 0xC2 then .illFormed
  else if n < 0xE0 then .begins ⟨n - 0xC0, 0, 0x80, 0xBF⟩
  else if n = 0xE0 then .begins ⟨0, 1, 0xA0, 0xBF⟩
  else if n = 0xED then .begins ⟨0xD, 1, 0x80, 0x9F⟩
  else if n < 0xF0 then .begins ⟨n - 0xE0, 1, 0x80, 0xBF⟩
  else if n = 0xF0 then .begins ⟨0, 2, 0x90, 0xBF⟩
  else if n < 0xF4 then .begins ⟨n - 0xF0, 2, 0x80, 0xBF⟩
  else if n = 0xF4 then .begins ⟨4, 2, 0x80, 0x8F⟩
  else .illFormed

/-- Stands for one ill-formed part. -/
def replacement : Char := '\uFFFD'

/-- The decoder between bytes: the characters so far, last first, and the one that has begun. -/
structure Progress where
  done : List Char
  pending : Option Pending
  deriving Repr

/-- Reads a byte that stands between characters. -/
def startWith (done : List Char) (b : UInt8) : Progress :=
  match lead b with
  | .whole c => ⟨c :: done, none⟩
  | .begins p => ⟨done, some p⟩
  | .illFormed => ⟨replacement :: done, none⟩

/-- Reads one byte. A byte that cannot continue the character that has begun closes it as ill-formed
and is read again as a first byte. -/
def step (s : Progress) (b : UInt8) : Progress :=
  match s.pending with
  | none => startWith s.done b
  | some p =>
    if p.low ≤ b.toNat ∧ b.toNat ≤ p.high then
      let bits := p.bits * 64 + (b.toNat - 0x80)
      match p.owed with
      | 0 => ⟨Char.ofNat bits :: s.done, none⟩
      | owed + 1 => ⟨s.done, some ⟨bits, owed, 0x80, 0xBF⟩⟩
    else startWith (replacement :: s.done) b

/-- Closes the text: a character that has begun and never ended is ill-formed. -/
def Progress.finish (s : Progress) : List Char :=
  match s.pending with
  | none => s.done.reverse
  | some _ => (replacement :: s.done).reverse

/-- The characters of a byte string, ill-formed parts replaced. -/
def decodeLossyChars (bytes : List UInt8) : List Char :=
  (bytes.foldl step ⟨[], none⟩).finish

/-- The text of a byte string, ill-formed parts replaced. -/
def decodeLossy (bytes : List UInt8) : String :=
  String.ofList (decodeLossyChars bytes)

end Registrar.Text.Utf8
