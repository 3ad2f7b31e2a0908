import Mathlib
import Registrar.Proofs.Script.Grammar

/-!
# Disassembly by places

The walk along a script takes the script apart as it goes. Here the script stays whole and a place in
it moves on: a byte is looked up at its place, a stretch is cut out from its place on, and what is left
is what remains when the place is subtracted. There is no answer if a byte is looked up or cut out that
the script does not have, if more is subtracted than there is, or if the turns run out. With one turn
more than the script has bytes there always is an answer, and it is the disassembly.
-/

namespace Registrar.Script

/-! ## Reading at a place -/

/-- The `size` bytes from a place on. There is no answer if the script does not have them all. -/
def fetchSlice (script : List UInt8) (place size : Nat) : Option (List UInt8) :=
  if place + size ≤ script.length then some ((script.drop place).take size) else none

/-- Takes `size` bytes from a place on and moves behind them, if as many are left. There is no answer
if the place is beyond the end. -/
def fetchBytes (script : List UInt8) (place size : Nat) :
    Option (Except Shortage (List UInt8 × Nat)) :=
  if script.length < place then none
  else if script.length - place < size then some (.error ⟨size, script.length - place⟩)
  else do
    let bytes ← fetchSlice script place size
    return .ok (bytes, place + size)

/-- Takes the operand that a layout calls for from a place on and moves behind it. -/
def fetchOperand (script : List UInt8) (place : Nat) :
    OperandLayout → Option (Except Shortage (Option (List UInt8) × Nat))
  | .absent => some (.ok (none, place))
  | .fixed size => do
    match ← fetchBytes script place size with
    | .error e => return .error e
    | .ok (data, next) => return .ok (some data, next)
  | .counted width => do
    match ← fetchBytes script place width with
    | .error e => return .error e
    | .ok (count, counted) =>
      match ← fetchBytes script counted (Radix.ofLittleEndian count) with
      | .error e => return .error e
      | .ok (data, next) => return .ok (some data, next)

/-- Disassembles a script from a place on, one instruction a turn, with everything looked up at its
place. There is no answer if the turns run out before the end. -/
def fetchCode (script : List UInt8) :
    Nat → Nat → Option (Except DisassemblyError (List Instruction))
  | 0, _ => none
  | turns + 1, place =>
    if place < script.length then do
      let b ← script[place]?
      match Opcode.ofByte? b with
      | none => return .error (.unknownOpcode b place)
      | some op =>
        match ← fetchOperand script (place + 1) op.layout with
        | .error e => return .error (.truncatedOperand op place e.needed e.available)
        | .ok (operand, next) =>
          match ← fetchCode script turns next with
          | .error e => return .error e
          | .ok code => return .ok (⟨place, op, operand⟩ :: code)
    else some (.ok [])

/-! ## Nothing is looked up in vain -/

/-- What is taken at a place is what is split off from the bytes there. -/
theorem fetchBytes_append (front bytes : List UInt8) (size : Nat) :
    fetchBytes (front ++ bytes) front.length size
      = some ((split size bytes).map fun parts => (parts.1, front.length + size)) := by
  have hleft : (front ++ bytes).length - front.length = bytes.length := by
    rw [List.length_append, Nat.add_sub_cancel_left]
  unfold fetchBytes
  rw [hleft, if_neg (by rw [List.length_append]; omega)]
  by_cases hroom : bytes.length < size
  · have hsplit : split size bytes = .error ⟨size, bytes.length⟩ := by
      unfold split
      exact if_neg (by rw [List.length_take]; omega)
    rw [if_pos hroom, hsplit]
    rfl
  · have hsplit : split size bytes = .ok (bytes.take size, bytes.drop size) := by
      unfold split
      exact if_pos (by rw [List.length_take]; omega)
    have hslice : fetchSlice (front ++ bytes) front.length size = some (bytes.take size) := by
      unfold fetchSlice
      rw [if_pos (by rw [List.length_append]; omega), List.drop_left]
    rw [if_neg hroom, hsplit, hslice]
    rfl

/-- The operand that is taken at a place is the one that is read from the bytes there, and the place
moves behind it. -/
theorem fetchOperand_append (front bytes : List UInt8) (layout : OperandLayout) :
    fetchOperand (front ++ bytes) front.length layout
      = some ((layout.read bytes).map fun parts =>
          (parts.1, front.length + (layout.encode parts.1).length)) := by
  cases layout with
  | absent => rfl
  | fixed size =>
    rw [fetchOperand, fetchBytes_append, OperandLayout.read]
    cases hsplit : split size bytes with
    | error e => rfl
    | ok parts =>
      obtain ⟨data, rest⟩ := parts
      rw [← length_of_split hsplit]
      rfl
  | counted width =>
    rw [fetchOperand, fetchBytes_append, OperandLayout.read]
    cases hcount : split width bytes with
    | error e => rfl
    | ok parts =>
      obtain ⟨count, counted⟩ := parts
      have hbytes : front ++ bytes = (front ++ count) ++ counted := by
        rw [← append_of_split hcount, List.append_assoc]
      have hplace : front.length + width = (front ++ count).length := by
        rw [List.length_append, length_of_split hcount]
      -- the data is taken behind the count, as if the count stood in front
      have hdata := fetchBytes_append (front ++ count) counted (Radix.ofLittleEndian count)
      rw [← hbytes, ← hplace] at hdata
      simp only [Except.map, Option.bind_eq_bind, Option.bind_some, hdata]
      cases hsplit : split (Radix.ofLittleEndian count) counted with
      | error e => rfl
      | ok parts =>
        obtain ⟨data, rest⟩ := parts
        rw [← length_of_split hsplit]
        simp [OperandLayout.encode, Nat.add_assoc]

/-- The operand of an opcode is taken right behind it. -/
theorem fetchOperand_cons (front : List UInt8) (b : UInt8) (bytes : List UInt8)
    (layout : OperandLayout) :
    fetchOperand (front ++ b :: bytes) (front.length + 1) layout
      = some ((layout.read bytes).map fun parts =>
          (parts.1, front.length + 1 + (layout.encode parts.1).length)) := by
  have hoperand := fetchOperand_append (front ++ [b]) bytes layout
  rwa [List.append_assoc, List.singleton_append, List.length_append, List.length_singleton]
    at hoperand

/-- From a place on, with more turns than there are bytes left, what is fetched is what the bytes
there disassemble to. -/
theorem fetchCode_append {turns : Nat} (front : List UInt8) {bytes : List UInt8}
    (h : bytes.length < turns) :
    fetchCode (front ++ bytes) turns front.length
      = some (disassembleFrom front.length bytes) := by
  induction turns generalizing front bytes with
  | zero => omega
  | succ turns ih =>
    rw [fetchCode]
    cases bytes with
    | nil =>
      rw [if_neg (by rw [List.append_nil]; omega), disassembleFrom]
    | cons b bytes =>
      have hat : (front ++ b :: bytes)[front.length]? = some b := by simp
      rw [if_pos (by simp), hat]
      simp only [Option.bind_eq_bind, Option.bind_some]
      cases hop : Opcode.ofByte? b with
      | none =>
        rw [disassembleFrom_unknown hop]
        rfl
      | some op =>
        simp only [fetchOperand_cons, Option.bind_some]
        cases hread : op.layout.read bytes with
        | error e =>
          rw [disassembleFrom_truncated hop hread]
          rfl
        | ok parts =>
          obtain ⟨operand, rest⟩ := parts
          obtain ⟨-, rfl⟩ := OperandLayout.encode_of_read hread
          have hnext : fetchCode (front ++ b :: (op.layout.encode operand ++ rest)) turns
                (front.length + 1 + (op.layout.encode operand).length)
              = some (disassembleFrom
                  (front.length + (Instruction.mk front.length op operand).encode.length) rest) := by
            have hturns : rest.length < turns := by
              rw [List.length_cons, List.length_append] at h
              omega
            have hrest := ih (front ++ b :: op.layout.encode operand) hturns
            rw [List.append_assoc, List.cons_append, List.length_append] at hrest
            rw [Nat.add_assoc, Nat.add_comm 1]
            exact hrest
          rw [disassembleFrom_read hop hread]
          simp only [Except.map, hnext, Option.bind_some]
          cases disassembleFrom _ rest <;> rfl

/-- Looking up by place is never in vain, comes to an end within a turn for each byte and one more,
and gives the disassembly. -/
theorem fetchCode_eq (script : List UInt8) :
    fetchCode script (script.length + 1) 0 = some (disassemble script) :=
  fetchCode_append [] (Nat.lt_succ_self _)

end Registrar.Script
