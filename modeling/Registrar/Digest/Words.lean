import Registrar.Radix

/-!
# Words and blocks of a byte string

The digests of this library read a message as blocks of sixteen 32-bit words. What they share is
here: reading words in either byte order, writing them back, and the filling that takes a message to
a whole number of blocks. Writing a word gives four bytes in both orders, so a digest's length is
four times its number of words.
-/

namespace Registrar.Digest

/-- Four bytes as a word, most significant byte first. -/
def wordBE (a b c d : UInt8) : UInt32 :=
  (a.toUInt32 <<< 24) ||| (b.toUInt32 <<< 16) ||| (c.toUInt32 <<< 8) ||| d.toUInt32

/-- Four bytes as a word, least significant byte first. -/
def wordLE (a b c d : UInt8) : UInt32 :=
  wordBE d c b a

/-- A byte string cut into words by `word`; bytes that do not fill a last word are left out. -/
def words (word : UInt8 → UInt8 → UInt8 → UInt8 → UInt32) : List UInt8 → List UInt32
  | a :: b :: c :: d :: rest => word a b c d :: words word rest
  | _ => []

/-- The bytes of a word, most significant first. -/
def bytesBE (w : UInt32) : List UInt8 :=
  [(w >>> 24).toUInt8, (w >>> 16).toUInt8, (w >>> 8).toUInt8, w.toUInt8]

/-- The bytes of a word, least significant first. -/
def bytesLE (w : UInt32) : List UInt8 :=
  [w.toUInt8, (w >>> 8).toUInt8, (w >>> 16).toUInt8, (w >>> 24).toUInt8]

/-- The eight bytes of a message length in bits, least significant first; lengths wrap at `2 ^ 64`.
-/
def lengthBytesLE (bits : Nat) : List UInt8 :=
  Radix.littleEndian 8 bits

/-- How many zero bytes follow the mark so that mark, zeros and an eight-byte length end a block. -/
def zeroFill (length : Nat) : Nat :=
  (119 - length % 64) % 64

/-- A message filled to whole blocks: the mark `0x80`, zeros, and the length in bits as
`lengthBytes` writes it. -/
def fill (lengthBytes : Nat → List UInt8) (message : List UInt8) : List UInt8 :=
  message ++ 0x80 :: (List.replicate (zeroFill message.length) 0
    ++ lengthBytes (8 * message.length))

/-- A filled message is a whole number of 64-byte blocks. -/
theorem length_fill (lengthBytes : Nat → List UInt8) (h : ∀ n, (lengthBytes n).length = 8)
    (message : List UInt8) : (fill lengthBytes message).length % 64 = 0 := by
  simp only [fill, List.length_append, List.length_cons, List.length_replicate, h, zeroFill]
  omega

/-- Takes `count` blocks of 64 bytes off a message, one after the other. -/
def absorb {σ : Type} (compress : σ → List UInt8 → σ) : Nat → σ → List UInt8 → σ
  | 0, state, _ => state
  | count + 1, state, bytes =>
    absorb compress count (compress state (bytes.take 64)) (bytes.drop 64)

end Registrar.Digest
