import Registrar.Script.Instruction
import Registrar.ScriptHash.Basic

/-!
# Writing scripts

Scripts are assembled from steps: single opcodes, pushes, calls of services and contracts, and two
larger forms. `invoke` follows the compilers' calling convention, with the arguments pushed last to
first, their count, and the method's name right before the call. `deploy` creates a contract, with
the bytecode right before the call of the creating service. The functions give the bytes of a step;
`Step` is a step as a value, so that a whole script is a list of them.
-/

namespace Registrar.Script

/-- The service that a deployment calls to create its contract. -/
def createService : String := "Neo.Contract.Create"

namespace Build

/-- An opcode alone. -/
def emit (op : Opcode) : List UInt8 :=
  [op.byte]

/-- Pushes a byte string, in the shortest form that holds its length. -/
def pushBytes (data : List UInt8) : List UInt8 :=
  let n := data.length
  if n = 0 then emit .push0
  else if n ≤ 75 then UInt8.ofNat n :: data
  else if n ≤ 255 then Opcode.pushData1.byte :: Radix.littleEndian 1 n ++ data
  else if n ≤ 65535 then Opcode.pushData2.byte :: Radix.littleEndian 2 n ++ data
  else Opcode.pushData4.byte :: Radix.littleEndian 4 n ++ data

/-- Pushes a text as its UTF-8 bytes. -/
def pushText (text : String) : List UInt8 :=
  pushBytes (Text.Utf8.encode text)

/-- The shortest two's complement form of a number, least significant byte first. The highest bit is
the sign, so a zero byte follows where that bit would be set. -/
def signedDigits (n : Nat) : List UInt8 :=
  let ds := Radix.bytes n
  match ds.getLast? with
  | some b => if 128 ≤ b.toNat then ds ++ [0] else ds
  | none => ds

/-- Pushes a number, by its own opcode up to sixteen. -/
def pushInt (n : Nat) : List UInt8 :=
  match Opcode.ofSmallInt? n with
  | some op => emit op
  | none => pushBytes (signedDigits n)

/-- Calls a service. The length of the name is written in one byte. -/
def sysCall (name : String) : List UInt8 :=
  let bytes := Text.Utf8.encode name
  Opcode.sysCall.byte :: Radix.littleEndian 1 bytes.length ++ bytes

/-- Calls a contract. -/
def appCall (contract : ScriptHash) : List UInt8 :=
  Opcode.appCall.byte :: contract.bytes

/-- Calls a method of a contract with arguments. -/
def invoke (contract : ScriptHash) (method : String) (args : List (List UInt8)) : List UInt8 :=
  args.reverse.flatMap pushBytes ++ pushInt args.length ++ emit .pack ++ pushText method
    ++ appCall contract

/-- Creates a contract from its bytecode. What is pushed first describes it: description, mail,
author, version and name, whether it keeps storage, its result type and its parameter types. -/
def deploy (bytecode : List UInt8) (name : String) : List UInt8 :=
  pushText "" ++ pushText "" ++ pushText "" ++ pushText "1.0" ++ pushText name ++ pushInt 1
    ++ pushBytes [0x05] ++ pushBytes [0x07, 0x10] ++ pushBytes bytecode ++ sysCall createService

end Build

/-- One step of assembling a script. -/
inductive Step where
  | emit (op : Opcode)
  | pushBytes (data : List UInt8)
  | pushText (text : String)
  | pushInt (n : Nat)
  | sysCall (name : String)
  | appCall (contract : ScriptHash)
  | invoke (contract : ScriptHash) (method : String) (args : List (List UInt8))
  | deploy (bytecode : List UInt8) (name : String)
  deriving DecidableEq, Repr

/-- The bytes that a step adds to a script. -/
def Step.bytes : Step → List UInt8
  | .emit op => Build.emit op
  | .pushBytes data => Build.pushBytes data
  | .pushText text => Build.pushText text
  | .pushInt n => Build.pushInt n
  | .sysCall name => Build.sysCall name
  | .appCall contract => Build.appCall contract
  | .invoke contract method args => Build.invoke contract method args
  | .deploy bytecode name => Build.deploy bytecode name

/-- The script that steps assemble. -/
def assemble (steps : List Step) : List UInt8 :=
  steps.flatMap Step.bytes

end Registrar.Script
