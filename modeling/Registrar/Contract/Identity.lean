import Registrar.Journal
import Registrar.Script.Builder
import Registrar.ScriptHash.Basic

/-!
# Contracts and their creation

A deployment script creates a contract by a call of the creating service; the bytecode is the
operand of the instruction right before the call. The first such call decides. A call that is the
very first instruction has nothing before it and is passed over.
-/

namespace Registrar.Contract

open Script (Instruction)

/-- A contract: its bytecode and the hash it is called by. -/
structure Identity where
  bytecode : List UInt8
  hash : ScriptHash
  deriving DecidableEq, Repr

/-- The contract that has this bytecode. -/
def Identity.ofBytecode (bytecode : List UInt8) : Identity :=
  ⟨bytecode, ScriptHash.ofScript bytecode⟩

/-- What a deployment script creates. -/
inductive Creation where
  /-- Nothing: the creating service is not called. -/
  | absent
  /-- The service is called at this offset, but the instruction before holds no bytecode. -/
  | bare (offset : Nat)
  /-- This contract. -/
  | created (contract : Identity)
  deriving DecidableEq, Repr

/-- Whether an instruction calls the creating service. -/
def isCreation (i : Instruction) : Bool :=
  i.opcode = .sysCall && i.operand = some (Text.Utf8.encode Script.createService)

/-- Looks for the first creation after `previous`. -/
def creationAfter (previous : Instruction) : List Instruction → Creation
  | [] => .absent
  | i :: rest =>
    if isCreation i then
      match previous.operand with
      | some bytecode => .created (Identity.ofBytecode bytecode)
      | none => .bare i.offset
    else creationAfter i rest

/-- What a script creates. -/
def Creation.ofCode : List Instruction → Creation
  | [] => .absent
  | first :: rest => creationAfter first rest

/-- The contract that was created, if any. -/
def Creation.contract? : Creation → Option Identity
  | .created contract => some contract
  | _ => none

/-- What is noted about a creation. -/
def Creation.journal : Creation → Journal
  | .absent => []
  | .bare offset =>
    [warn ("Contract creation at offset " ++ toString offset ++ " has no bytecode push")]
  | .created contract =>
    [info ("Located contract " ++ contract.hash.text ++ " (" ++ toString contract.bytecode.length
      ++ " bytes of bytecode)")]

end Registrar.Contract
