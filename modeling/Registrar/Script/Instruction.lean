import Registrar.Radix
import Registrar.Script.Opcode
import Registrar.Text.Utf8

/-!
# Instructions

An instruction is an opcode with the operand that follows it, at the offset where it stands in its
script. The operand holds the data alone: where a length is written before it, the length is not
part of it. `encode` is the form an instruction takes in a script, and `Matches` says which operands
an opcode can have there. `IsCodeFrom` is the form that a whole script has as instructions: they
stand without gaps, each with an operand that fits.
-/

namespace Registrar.Script

/-- An opcode and its operand, at their place in a script. -/
structure Instruction where
  /-- How many bytes of the script stand before the opcode. -/
  offset : Nat
  opcode : Opcode
  operand : Option (List UInt8)
  deriving DecidableEq, Repr

namespace OperandLayout

/-- Whether an operand fits a layout. -/
def Matches : OperandLayout → Option (List UInt8) → Prop
  | .absent, operand => operand = none
  | .fixed size, operand => ∃ data, operand = some data ∧ data.length = size
  | .counted width, operand => ∃ data, operand = some data ∧ data.length < Nat.pow 256 width

/-- The bytes that follow an opcode of this layout for a given operand. -/
def encode : OperandLayout → Option (List UInt8) → List UInt8
  | _, none => []
  | .counted width, some data => Radix.littleEndian width data.length ++ data
  | _, some data => data

end OperandLayout

namespace Instruction

/-- The bytes of an instruction in a script. -/
def encode (i : Instruction) : List UInt8 :=
  i.opcode.byte :: i.opcode.layout.encode i.operand

/-- The same instruction `n` bytes further on. -/
def shift (n : Nat) (i : Instruction) : Instruction :=
  { i with offset := i.offset + n }

/-- The operand as text, when it has one and it is well-formed UTF-8. -/
def operandText? (i : Instruction) : Option String :=
  i.operand.bind Text.Utf8.decode?

/-- The byte string that the instruction leaves on the stack, if all it does is to push one. A push
with data leaves its operand; a push of a number leaves the number's shortest form, which is empty
for zero. -/
def pushValue? (i : Instruction) : Option (List UInt8) :=
  match i.operand with
  | some data => if i.opcode.isPush then some data else none
  | none =>
    match i.opcode with
    | .pushM1 => some [0xFF]
    | op =>
      match op.smallInt? with
      | some 0 => some []
      | some n => some [UInt8.ofNat n]
      | none => none

end Instruction

/-- The bytes of a list of instructions, one after the other. -/
def encode (code : List Instruction) : List UInt8 :=
  code.flatMap Instruction.encode

/-- Whether instructions follow one another from `offset` on, each where the one before it ends and
each with an operand that its opcode can have. -/
def IsCodeFrom (offset : Nat) : List Instruction → Prop
  | [] => True
  | i :: rest =>
    i.offset = offset ∧ i.opcode.layout.Matches i.operand
      ∧ IsCodeFrom (offset + i.encode.length) rest

end Registrar.Script
