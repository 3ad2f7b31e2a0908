import Registrar.Digest.Words

/-!
# RIPEMD-160

Two lines of eighty steps run over each block side by side, with different word orders, shifts and
constants, and are added crosswise into a five-word state. The digest is 20 bytes for every message.
-/

namespace Registrar.Digest.Ripemd160

/-- The five working words. -/
structure State where
  a : UInt32
  b : UInt32
  c : UInt32
  d : UInt32
  e : UInt32
  deriving DecidableEq, Repr

/-- The state before the first block. -/
def initial : State :=
  ⟨0x67452301, 0xefcdab89, 0x98badcfe, 0x10325476, 0xc3d2e1f0⟩

/-- Which word of the block each step of the left line takes in. -/
def leftOrder : List Nat :=
  [0, 1, 2, 3, 4, 5, 6, 7, 8, 9, 10, 11, 12, 13, 14, 15,
   7, 4, 13, 1, 10, 6, 15, 3, 12, 0, 9, 5, 2, 14, 11, 8,
   3, 10, 14, 4, 9, 15, 8, 1, 2, 7, 0, 6, 13, 11, 5, 12,
   1, 9, 11, 10, 0, 8, 12, 4, 13, 3, 7, 15, 14, 5, 6, 2,
   4, 0, 5, 9, 7, 12, 2, 10, 14, 1, 3, 8, 11, 6, 15, 13]

/-- Which word of the block each step of the right line takes in. -/
def rightOrder : List Nat :=
  [5, 14, 7, 0, 9, 2, 11, 4, 13, 6, 15, 8, 1, 10, 3, 12,
   6, 11, 3, 7, 0, 13, 5, 10, 14, 15, 8, 12, 4, 9, 1, 2,
   15, 5, 1, 3, 7, 14, 6, 9, 11, 8, 12, 2, 10, 0, 4, 13,
   8, 6, 4, 1, 3, 11, 15, 0, 5, 12, 2, 13, 9, 7, 10, 14,
   12, 15, 10, 4, 1, 5, 8, 7, 6, 2, 13, 14, 0, 3, 9, 11]

/-- By how much each step of the left line turns. -/
def leftShifts : List UInt32 :=
  [11, 14, 15, 12, 5, 8, 7, 9, 11, 13, 14, 15, 6, 7, 9, 8,
   7, 6, 8, 13, 11, 9, 7, 15, 7, 12, 15, 9, 11, 7, 13, 12,
   11, 13, 6, 7, 14, 9, 13, 15, 14, 8, 13, 6, 5, 12, 7, 5,
   11, 12, 14, 15, 14, 15, 9, 8, 9, 14, 5, 6, 8, 6, 5, 12,
   9, 15, 5, 11, 6, 8, 13, 12, 5, 12, 13, 14, 11, 8, 5, 6]

/-- By how much each step of the right line turns. -/
def rightShifts : List UInt32 :=
  [8, 9, 9, 11, 13, 15, 15, 5, 7, 7, 8, 11, 14, 14, 12, 6,
   9, 13, 15, 7, 12, 8, 9, 11, 7, 7, 12, 7, 6, 15, 13, 11,
   9, 7, 15, 11, 8, 6, 6, 14, 12, 13, 5, 14, 13, 13, 7, 5,
   15, 5, 8, 11, 14, 14, 6, 14, 6, 9, 12, 9, 12, 5, 15, 8,
   8, 5, 12, 9, 12, 5, 14, 6, 8, 13, 6, 5, 15, 13, 11, 11]

/-- The constants of the left line, one for each group of sixteen steps. -/
def leftConstants : List UInt32 :=
  [0x00000000, 0x5a827999, 0x6ed9eba1, 0x8f1bbcdc, 0xa953fd4e]

/-- The constants of the right line, one for each group of sixteen steps. -/
def rightConstants : List UInt32 :=
  [0x50a28be6, 0x5c4dd124, 0x6d703ef3, 0x7a6d76e9, 0x00000000]

/-- The mixing function of a group of sixteen steps; the right line takes the groups in reverse. -/
def mix (group : Nat) (x y z : UInt32) : UInt32 :=
  match group with
  | 0 => x ^^^ y ^^^ z
  | 1 => (x &&& y) ||| (~~~x &&& z)
  | 2 => (x ||| ~~~y) ^^^ z
  | 3 => (x &&& z) ||| (y &&& ~~~z)
  | _ => x ^^^ (y ||| ~~~z)

/-- Turns a word left by `n` bits. -/
def rotateLeft (x n : UInt32) : UInt32 :=
  (x <<< n) ||| (x >>> (32 - n))

/-- What one step takes in beside the state. -/
structure Step where
  group : Nat
  word : UInt32
  constant : UInt32
  shift : UInt32

/-- One step of a line. -/
def step (s : State) (p : Step) : State :=
  let t := rotateLeft (s.a + mix p.group s.b s.c s.d + p.word + p.constant) p.shift + s.e
  ⟨s.e, t, s.b, rotateLeft s.c 10, s.d⟩

/-- The eighty steps of the left line over the words of a block. -/
def leftSteps (block : Array UInt32) : List Step :=
  (List.range 80).map fun i =>
    ⟨i / 16, block.getD (leftOrder.getD i 0) 0, leftConstants.getD (i / 16) 0, leftShifts.getD i 0⟩

/-- The eighty steps of the right line over the words of a block. -/
def rightSteps (block : Array UInt32) : List Step :=
  (List.range 80).map fun i =>
    ⟨4 - i / 16, block.getD (rightOrder.getD i 0) 0, rightConstants.getD (i / 16) 0,
      rightShifts.getD i 0⟩

/-- Takes one block into the state: the sums cross over between the lines. -/
def compress (s : State) (block : List UInt8) : State :=
  let ws := (words wordLE block).toArray
  let l := (leftSteps ws).foldl step s
  let r := (rightSteps ws).foldl step s
  ⟨s.b + l.c + r.d, s.c + l.d + r.e, s.d + l.e + r.a, s.e + l.a + r.b, s.a + l.b + r.c⟩

/-- The 20 bytes of a state. -/
def State.bytes (s : State) : List UInt8 :=
  [s.a, s.b, s.c, s.d, s.e].flatMap bytesLE

end Ripemd160

/-- RIPEMD-160 of a message. -/
def ripemd160 (message : List UInt8) : List UInt8 :=
  let filled := fill lengthBytesLE message
  (absorb Ripemd160.compress (filled.length / 64) Ripemd160.initial filled).bytes

@[simp] theorem length_ripemd160 (message : List UInt8) : (ripemd160 message).length = 20 := rfl

end Registrar.Digest
