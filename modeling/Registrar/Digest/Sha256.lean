import Registrar.Digest.Words

/-!
# SHA-256

The digest behind script hashes, address checksums and the hashes of transactions and blocks. A
message is filled to whole blocks, and each block changes an eight-word state by sixty-four rounds.
The digest is 32 bytes for every message.
-/

namespace Registrar.Digest.Sha256

/-- The eight working words. -/
structure State where
  a : UInt32
  b : UInt32
  c : UInt32
  d : UInt32
  e : UInt32
  f : UInt32
  g : UInt32
  h : UInt32
  deriving DecidableEq, Repr

/-- The state before the first block. -/
def initial : State :=
  ⟨0x6a09e667, 0xbb67ae85, 0x3c6ef372, 0xa54ff53a, 0x510e527f, 0x9b05688c, 0x1f83d9ab, 0x5be0cd19⟩

/-- One constant for each round. -/
def constants : List UInt32 :=
  [0x428a2f98, 0x71374491, 0xb5c0fbcf, 0xe9b5dba5, 0x3956c25b, 0x59f111f1,
   0x923f82a4, 0xab1c5ed5, 0xd807aa98, 0x12835b01, 0x243185be, 0x550c7dc3,
   0x72be5d74, 0x80deb1fe, 0x9bdc06a7, 0xc19bf174, 0xe49b69c1, 0xefbe4786,
   0x0fc19dc6, 0x240ca1cc, 0x2de92c6f, 0x4a7484aa, 0x5cb0a9dc, 0x76f988da,
   0x983e5152, 0xa831c66d, 0xb00327c8, 0xbf597fc7, 0xc6e00bf3, 0xd5a79147,
   0x06ca6351, 0x14292967, 0x27b70a85, 0x2e1b2138, 0x4d2c6dfc, 0x53380d13,
   0x650a7354, 0x766a0abb, 0x81c2c92e, 0x92722c85, 0xa2bfe8a1, 0xa81a664b,
   0xc24b8b70, 0xc76c51a3, 0xd192e819, 0xd6990624, 0xf40e3585, 0x106aa070,
   0x19a4c116, 0x1e376c08, 0x2748774c, 0x34b0bcb5, 0x391c0cb3, 0x4ed8aa4a,
   0x5b9cca4f, 0x682e6ff3, 0x748f82ee, 0x78a5636f, 0x84c87814, 0x8cc70208,
   0x90befffa, 0xa4506ceb, 0xbef9a3f7, 0xc67178f2]

/-- Turns a word right by `n` bits. -/
def rotateRight (x n : UInt32) : UInt32 :=
  (x >>> n) ||| (x <<< (32 - n))

def sigma0 (x : UInt32) : UInt32 := rotateRight x 7 ^^^ rotateRight x 18 ^^^ (x >>> 3)

def sigma1 (x : UInt32) : UInt32 := rotateRight x 17 ^^^ rotateRight x 19 ^^^ (x >>> 10)

def bigSigma0 (x : UInt32) : UInt32 := rotateRight x 2 ^^^ rotateRight x 13 ^^^ rotateRight x 22

def bigSigma1 (x : UInt32) : UInt32 := rotateRight x 6 ^^^ rotateRight x 11 ^^^ rotateRight x 25

/-- Takes `y` where `x` has a bit and `z` where it has none. -/
def choose (x y z : UInt32) : UInt32 := (x &&& y) ^^^ (~~~x &&& z)

/-- The bits that at least two of three words have. -/
def majority (x y z : UInt32) : UInt32 := (x &&& y) ^^^ (x &&& z) ^^^ (y &&& z)

/-- Each word after the sixteen of the block comes from four before it. -/
def extend (schedule : Array UInt32) (i : Nat) : Array UInt32 :=
  schedule.push (sigma1 (schedule.getD (i + 14) 0) + schedule.getD (i + 9) 0
    + sigma0 (schedule.getD (i + 1) 0) + schedule.getD i 0)

/-- The sixty-four words that the rounds of a block take in. -/
def schedule (block : List UInt8) : List UInt32 :=
  ((List.range 48).foldl extend (words wordBE block).toArray).toList

/-- One round, with its constant and its word. -/
def round (s : State) (kw : UInt32 × UInt32) : State :=
  let t := s.h + bigSigma1 s.e + choose s.e s.f s.g + kw.1 + kw.2
  ⟨t + (bigSigma0 s.a + majority s.a s.b s.c), s.a, s.b, s.c, s.d + t, s.e, s.f, s.g⟩

/-- Word by word sum of two states. -/
def State.add (s t : State) : State :=
  ⟨s.a + t.a, s.b + t.b, s.c + t.c, s.d + t.d, s.e + t.e, s.f + t.f, s.g + t.g, s.h + t.h⟩

/-- Takes one block into the state. -/
def compress (s : State) (block : List UInt8) : State :=
  s.add ((constants.zip (schedule block)).foldl round s)

/-- The 32 bytes of a state. -/
def State.bytes (s : State) : List UInt8 :=
  [s.a, s.b, s.c, s.d, s.e, s.f, s.g, s.h].flatMap bytesBE

/-- The message length as the last eight bytes, most significant first. -/
def lengthBytes (bits : Nat) : List UInt8 :=
  (lengthBytesLE bits).reverse

end Sha256

/-- SHA-256 of a message. -/
def sha256 (message : List UInt8) : List UInt8 :=
  let filled := fill Sha256.lengthBytes message
  (absorb Sha256.compress (filled.length / 64) Sha256.initial filled).bytes

/-- SHA-256 of the SHA-256 of a message. -/
def doubleSha256 (message : List UInt8) : List UInt8 :=
  sha256 (sha256 message)

@[simp] theorem length_sha256 (message : List UInt8) : (sha256 message).length = 32 := rfl

@[simp] theorem length_doubleSha256 (message : List UInt8) : (doubleSha256 message).length = 32 :=
  rfl

end Registrar.Digest
