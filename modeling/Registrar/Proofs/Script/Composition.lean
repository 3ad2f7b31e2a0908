import Mathlib
import Registrar.Proofs.Script.Grammar

/-!
# Scripts one after the other

A disassembly does not depend on where its script begins, except for the offsets that it tells. So a
script that stands behind one that disassembles is read as it is read alone, only further on, and it
fails as it fails alone.
-/

namespace Registrar.Script

/-! ## Further on -/

/-- The same failure `n` bytes further on. -/
def DisassemblyError.shift (n : Nat) : DisassemblyError → DisassemblyError
  | .unknownOpcode byte offset => .unknownOpcode byte (offset + n)
  | .truncatedOperand opcode offset needed available =>
    .truncatedOperand opcode (offset + n) needed available

/-- What a disassembly gives, `n` bytes further on. -/
def shiftResult (n : Nat) :
    Except DisassemblyError (List Instruction) → Except DisassemblyError (List Instruction)
  | .ok code => .ok (code.map (Instruction.shift n))
  | .error e => .error (e.shift n)

/-- Where a script begins is told by the offsets alone. -/
theorem disassembleFrom_add (n offset : Nat) (bytes : List UInt8) :
    disassembleFrom (offset + n) bytes = shiftResult n (disassembleFrom offset bytes) := by
  fun_induction disassembleFrom offset bytes with
  | case1 offset =>
    rw [disassembleFrom]
    rfl
  | case2 offset b bytes hop =>
    rw [disassembleFrom_unknown hop]
    rfl
  | case3 offset b bytes op hop e hread =>
    rw [disassembleFrom_truncated hop hread]
    rfl
  | case4 offset b bytes op hop operand rest hread i e htail ih =>
    rw [htail, Nat.add_right_comm] at ih
    rw [disassembleFrom_read hop hread]
    exact congrArg _ ih
  | case5 offset b bytes op hop operand rest hread i code htail ih =>
    rw [htail, Nat.add_right_comm] at ih
    rw [disassembleFrom_read hop hread]
    exact congrArg _ ih

/-! ## One behind the other -/

/-- The walk over two scripts goes on with the second where the first ends. -/
theorem disassembleFrom_append {offset : Nat} {a : List UInt8} {code : List Instruction}
    (h : disassembleFrom offset a = .ok code) (b : List UInt8) :
    disassembleFrom offset (a ++ b)
      = (disassembleFrom (offset + a.length) b).map (code ++ ·) := by
  obtain ⟨hcode, rfl⟩ := encode_of_disassembleFrom h
  clear h
  induction code generalizing offset with
  | nil =>
    show disassembleFrom offset b = (disassembleFrom offset b).map id
    cases disassembleFrom offset b <;> rfl
  | cons i rest ih =>
    obtain ⟨hplace, hfits, hrest⟩ := hcode
    have hbytes : encode (i :: rest) = i.encode ++ encode rest := rfl
    rw [hbytes, List.append_assoc, disassembleFrom_encode_append hplace hfits, ih hrest,
      List.length_append, Nat.add_assoc]
    cases disassembleFrom _ b <;> rfl

/-- Behind a script that disassembles, a script is read as it is read alone, each of its
instructions as many bytes further on as stand before it; and if it fails, the whole fails as it does
alone, only so many bytes further on. -/
theorem disassemble_append {a : List UInt8} {code : List Instruction}
    (h : disassemble a = .ok code) (b : List UInt8) :
    (∀ tail, disassemble b = .ok tail →
      disassemble (a ++ b) = .ok (code ++ tail.map (Instruction.shift a.length))) ∧
    (∀ e, disassemble b = .error e → disassemble (a ++ b) = .error (e.shift a.length)) := by
  have hwhole : disassemble (a ++ b)
      = (shiftResult a.length (disassemble b)).map (code ++ ·) := by
    rw [disassemble, disassembleFrom_append h b, disassembleFrom_add, ← disassemble]
  constructor
  · intro tail htail
    rw [hwhole, htail]
    rfl
  · intro e he
    rw [hwhole, he]
    rfl

/-- Behind two pushes, an opcode is read at the fourth byte, and a push that is cut off fails there. -/
theorem disassemble_append_two_pushes :
    disassemble [0x51, 0x02, 0xAA, 0xBB]
      = .ok [⟨0, .pushInt 0, none⟩, ⟨1, .pushBytes 1, some [0xAA, 0xBB]⟩] ∧
    disassemble ([0x51, 0x02, 0xAA, 0xBB] ++ [0x61])
      = .ok [⟨0, .pushInt 0, none⟩, ⟨1, .pushBytes 1, some [0xAA, 0xBB]⟩, ⟨4, .nop, none⟩] ∧
    disassemble ([0x51, 0x02, 0xAA, 0xBB] ++ [0x61, 0x4C, 0x05, 0xCC])
      = .error (.truncatedOperand .pushData1 5 5 1) := by
  have hpushes : disassemble [0x51, 0x02, 0xAA, 0xBB]
      = .ok [⟨0, .pushInt 0, none⟩, ⟨1, .pushBytes 1, some [0xAA, 0xBB]⟩] := by cbv
  refine ⟨hpushes, ?_, ?_⟩
  · exact (disassemble_append hpushes [0x61]).1 [⟨0, .nop, none⟩] (by cbv)
  · exact (disassemble_append hpushes [0x61, 0x4C, 0x05, 0xCC]).2
      (.truncatedOperand .pushData1 1 5 1) (by cbv)

end Registrar.Script
