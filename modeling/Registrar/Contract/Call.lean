import Registrar.Journal
import Registrar.Script.Instruction
import Registrar.ScriptHash.Basic

/-!
# Calls of a contract

A compiled call pushes its arguments last to first, then their count, packs them, pushes the
method's name and calls the contract. So from the call one reads backwards: the name, one
instruction that is passed over, the count, and the arguments from first to last. The instructions
before a call are given nearest first, which makes this reading a walk along a list.

A call that does not follow the convention is passed over; a call whose convention points before the
start of the script makes the whole script unreadable.
-/

namespace Registrar.Contract

open Script (Instruction Opcode)

/-- A call of the contract. -/
structure Call where
  /-- Where the calling instruction stands in the script. -/
  offset : Nat
  method : String
  args : List (List UInt8)
  deriving DecidableEq, Repr

/-- A call at `offset`, the instruction of number `index`, reads `back` instructions back, which is
before the start of the script. -/
structure Underflow where
  offset : Nat
  index : Nat
  back : Nat
  deriving DecidableEq, Repr

/-- The message of an unreadable script. -/
def Underflow.message (e : Underflow) : String :=
  "Call at offset " ++ toString e.offset ++ " reads before the start of the script (index "
    ++ toString e.index ++ " - " ++ toString e.back ++ ")"

/-- Why a call is passed over. -/
inductive Skip where
  /-- The instruction before the call has no text. -/
  | noMethod (offset : Nat)
  /-- Nothing that pushes a count stands where the count should be. -/
  | noCount (method : String) (offset : Nat)
  /-- The argument of this number is not a push. -/
  | notPush (method : String) (offset argument : Nat)
  deriving DecidableEq, Repr

/-- What is noted about a call that is passed over. -/
def Skip.entry : Skip → Entry
  | .noMethod offset => debug ("Skipping call at offset " ++ toString offset ++ ": no method name")
  | .noCount method offset =>
    debug ("Skipping call to " ++ method ++ " at offset " ++ toString offset
      ++ ": no argument count")
  | .notPush method offset argument =>
    debug ("Skipping call to " ++ method ++ " at offset " ++ toString offset ++ ": argument "
      ++ toString argument ++ " is not a push")

/-- What a call turns out to be. -/
inductive Reading where
  | call (call : Call)
  | skipped (reason : Skip)
  | underflow (fault : Underflow)
  deriving DecidableEq, Repr

/-! ## One call -/

/-- Whether an instruction calls `contract`. -/
def isCallOf (contract : ScriptHash) (i : Instruction) : Bool :=
  i.opcode = .appCall && i.operand = some contract.bytes

/-- The number of arguments that an instruction pushes: by an opcode of its own, or by a byte string
of at most two bytes whose sign bit is clear. -/
def count? (i : Instruction) : Option Nat :=
  match i.opcode.smallInt? with
  | some n => some n
  | none =>
    if i.opcode.isPushBytes then
      match i.operand with
      | none => none
      | some data =>
        if 2 < data.length then none
        else
          match data.getLast? with
          | some b => if 128 ≤ b.toNat then none else some (Radix.ofLittleEndian data)
          | none => some (Radix.ofLittleEndian data)
    else none

/-- Where the arguments of a call end early: at the argument of this number. -/
inductive Gap where
  | start (argument : Nat)
  | notPush (argument : Nat)
  deriving DecidableEq, Repr

/-- The values of `count` arguments, of which `argument` is the number of the first, from the
instructions before them, nearest first. -/
def arguments (argument : Nat) : Nat → List Instruction → Except Gap (List (List UInt8))
  | 0, _ => .ok []
  | _ + 1, [] => .error (.start argument)
  | count + 1, i :: before =>
    match i.pushValue? with
    | none => .error (.notPush argument)
    | some value =>
      match arguments (argument + 1) count before with
      | .error gap => .error gap
      | .ok values => .ok (value :: values)

/-- Reads the call that stands at `offset` and has `before` before it, nearest first. -/
def readCall (offset : Nat) (before : List Instruction) : Reading :=
  match before.head?.bind Instruction.operandText? with
  | none => .skipped (.noMethod offset)
  | some method =>
    match before.drop 2 with
    | [] => .underflow ⟨offset, before.length, 3⟩
    | counter :: rest =>
      match count? counter with
      | none => .skipped (.noCount method offset)
      | some count =>
        match arguments 0 count rest with
        | .ok args => .call ⟨offset, method, args⟩
        | .error (.start argument) => .underflow ⟨offset, before.length, 4 + argument⟩
        | .error (.notPush argument) => .skipped (.notPush method offset argument)

/-! ## A whole script -/

/-- The calls of `contract` in the instructions that follow `before`, in order. The first
instruction of a script is never one. -/
def readings (contract : ScriptHash) (before : List Instruction) : List Instruction → List Reading
  | [] => []
  | i :: rest =>
    if !before.isEmpty && isCallOf contract i then
      readCall i.offset before :: readings contract (i :: before) rest
    else readings contract (i :: before) rest

/-- What a script holds for a contract: its calls up to the first unreadable one, which is the
fault, and the notes made on the way. -/
structure Extraction where
  calls : List Call
  journal : Journal
  fault : Option Underflow
  deriving DecidableEq, Repr

/-- Collects readings up to the first unreadable one. -/
def Extraction.ofReadings : List Reading → Extraction
  | [] => ⟨[], [], none⟩
  | .underflow fault :: _ => ⟨[], [], some fault⟩
  | .skipped reason :: rest =>
    let e := ofReadings rest
    { e with journal := reason.entry :: e.journal }
  | .call call :: rest =>
    let e := ofReadings rest
    { e with calls := call :: e.calls }

/-- The calls, unless one was unreadable: then there are none. -/
def Extraction.result (e : Extraction) : Except Underflow (List Call) :=
  match e.fault with
  | some fault => .error fault
  | none => .ok e.calls

/-- Extracts the calls of a contract from a script. Where no contract is known nothing is found. -/
def extract (contract : Option ScriptHash) (code : List Instruction) : Extraction :=
  match contract with
  | none => ⟨[], [], none⟩
  | some contract => Extraction.ofReadings (readings contract [] code)

end Registrar.Contract
