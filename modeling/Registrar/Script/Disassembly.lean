import Registrar.Script.Instruction
import Registrar.Text.Hex

/-!
# Disassembly

A script is read from its first byte to its last: an opcode, the operand its layout calls for, and
so on with what is left. Each step leaves a shorter rest, so the reading ends for every script. It
fails at a byte that is no opcode and at an operand that the script is too short for; the error
tells where the instruction stands and how many bytes it asked for and found.
-/

namespace Registrar.Script

/-- Why a script does not disassemble. -/
inductive DisassemblyError where
  /-- The byte at `offset` stands for no opcode. -/
  | unknownOpcode (byte : UInt8) (offset : Nat)
  /-- The operand of the opcode at `offset` needs more bytes than are left. -/
  | truncatedOperand (opcode : Opcode) (offset needed available : Nat)
  deriving DecidableEq, Repr

/-- The message of a failed disassembly. -/
def DisassemblyError.message : DisassemblyError → String
  | .unknownOpcode byte offset =>
    "Unknown opcode 0x" ++ Text.Hex.number 2 byte.toNat ++ " at offset " ++ toString offset
  | .truncatedOperand opcode offset needed available =>
    "Truncated operand for " ++ opcode.mnemonic ++ " at offset " ++ toString offset ++ ": need "
      ++ toString needed ++ " bytes, " ++ toString available ++ " left"

/-- More bytes were asked for than there are. -/
structure Shortage where
  needed : Nat
  available : Nat
  deriving DecidableEq, Repr

/-- The first `n` bytes and the rest. -/
def split (n : Nat) (bytes : List UInt8) : Except Shortage (List UInt8 × List UInt8) :=
  let front := bytes.take n
  if front.length = n then .ok (front, bytes.drop n) else .error ⟨n, bytes.length⟩

/-- The operand that a layout calls for, and the rest. -/
def OperandLayout.read (layout : OperandLayout) (bytes : List UInt8) :
    Except Shortage (Option (List UInt8) × List UInt8) :=
  match layout with
  | .absent => .ok (none, bytes)
  | .fixed size =>
    match split size bytes with
    | .error e => .error e
    | .ok (data, rest) => .ok (some data, rest)
  | .counted width =>
    match split width bytes with
    | .error e => .error e
    | .ok (count, rest) =>
      match split (Radix.ofLittleEndian count) rest with
      | .error e => .error e
      | .ok (data, rest) => .ok (some data, rest)

/-- The two parts of a split make up the whole. -/
theorem append_of_split {n : Nat} {bytes front rest : List UInt8}
    (h : split n bytes = .ok (front, rest)) : front ++ rest = bytes := by
  simp only [split] at h
  split at h
  · cases h
    exact List.take_append_drop n bytes
  · cases h

/-- Reading an operand never leaves more than there was. -/
theorem OperandLayout.length_le_of_read {layout : OperandLayout} {bytes rest : List UInt8}
    {operand : Option (List UInt8)} (h : layout.read bytes = .ok (operand, rest)) :
    rest.length ≤ bytes.length := by
  have le {n : Nat} {bytes front rest : List UInt8} (h : split n bytes = .ok (front, rest)) :
      rest.length ≤ bytes.length := by
    rw [← append_of_split h, List.length_append]
    omega
  cases layout with
  | absent =>
    cases h
    exact Nat.le_refl _
  | fixed size =>
    simp only [OperandLayout.read] at h
    split at h
    · cases h
    · next hs =>
      cases h
      exact le hs
  | counted width =>
    simp only [OperandLayout.read] at h
    split at h
    · cases h
    · next hc =>
      split at h
      · cases h
      · next hs =>
        cases h
        exact Nat.le_trans (le hs) (le hc)

/-- Disassembles the bytes that stand at `offset` of their script. -/
def disassembleFrom (offset : Nat) : List UInt8 → Except DisassemblyError (List Instruction)
  | [] => .ok []
  | b :: bytes =>
    match Opcode.ofByte? b with
    | none => .error (.unknownOpcode b offset)
    | some opcode =>
      match _h : opcode.layout.read bytes with
      | .error e => .error (.truncatedOperand opcode offset e.needed e.available)
      | .ok (operand, rest) =>
        let i : Instruction := ⟨offset, opcode, operand⟩
        match disassembleFrom (offset + i.encode.length) rest with
        | .error e => .error e
        | .ok code => .ok (i :: code)
termination_by bytes => bytes.length
decreasing_by exact Nat.lt_succ_of_le (OperandLayout.length_le_of_read _h)

/-- Reads a script as instructions. -/
def disassemble (script : List UInt8) : Except DisassemblyError (List Instruction) :=
  disassembleFrom 0 script

/-! ## Listings -/

/-- The line of an instruction: offset, name, and the operand. The operand of a service call is the
name of the service and is shown as text; any other is shown in hexadecimal, and left out when it is
empty. -/
def Instruction.line (i : Instruction) : String :=
  let head := Text.Hex.number 4 i.offset ++ ": " ++ i.opcode.mnemonic
  match i.operand with
  | none => head
  | some data =>
    if i.opcode = .sysCall then head ++ " " ++ Text.Utf8.decodeLossy data
    else if data.isEmpty then head
    else head ++ " " ++ Text.Hex.encode data

/-- The listing of a script, a line for each instruction; of a script that does not disassemble, one
line that tells why. -/
def listing (script : List UInt8) : String :=
  match disassemble script with
  | .ok code => String.join (code.map fun i => i.line ++ "\n")
  | .error e => "<invalid script: " ++ e.message ++ ">\n"

end Registrar.Script
