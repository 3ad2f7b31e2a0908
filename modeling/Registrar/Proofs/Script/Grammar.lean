import Mathlib
import Registrar.Proofs.Script.Placement

/-!
# The scripts that disassemble

A list of instructions is well formed if each operand is one that its opcode can have and each
instruction stands where the ones before it end. The disassembly of a script is the one well-formed
list that is written as the script: nothing of the script is lost or read in two ways, and a script
is refused only if no list is written so.
-/

namespace Registrar.Script

/-! ## What is read is what stands there -/

/-- A byte that is read as an opcode is the opcode's byte. -/
theorem Opcode.byte_of_ofByte? {b : UInt8} {op : Opcode} (h : Opcode.ofByte? b = some op) :
    op.byte = b := by
  have htable : ∀ n : Fin 256,
      (Opcode.ofByte? (UInt8.ofFin n)).all (fun op => op.byte = UInt8.ofFin n) = true := by
    decide +kernel
  have hbyte := htable b.toFin
  rw [UInt8.ofFin_toFin, h] at hbyte
  simpa using hbyte

/-- The first part of a split is as long as was asked for. -/
theorem length_of_split {n : Nat} {bytes front rest : List UInt8}
    (h : split n bytes = .ok (front, rest)) : front.length = n := by
  simp only [split] at h
  split at h
  · next hlength =>
    cases h
    exact hlength
  · cases h

/-- An operand that is read fits its layout, and what was read is how it is written. -/
theorem OperandLayout.encode_of_read {layout : OperandLayout} {bytes rest : List UInt8}
    {operand : Option (List UInt8)} (h : layout.read bytes = .ok (operand, rest)) :
    layout.Matches operand ∧ layout.encode operand ++ rest = bytes := by
  cases layout with
  | absent =>
    cases h
    exact ⟨rfl, rfl⟩
  | fixed size =>
    simp only [OperandLayout.read] at h
    split at h
    · cases h
    · next data rest' hdata =>
      cases h
      exact ⟨⟨data, rfl, length_of_split hdata⟩, append_of_split hdata⟩
  | counted width =>
    simp only [OperandLayout.read] at h
    split at h
    · cases h
    · next count counted hcount =>
      split at h
      · cases h
      · next data rest' hdata =>
        cases h
        have hwidth : count.length = width := length_of_split hcount
        have hlength : data.length = Radix.ofLittleEndian count := length_of_split hdata
        subst hwidth
        refine ⟨⟨data, rfl, ?_⟩, ?_⟩
        · rw [hlength]
          exact Radix.ofLittleEndian_lt count
        · -- the length bytes are the only ones that spell this length
          show (Radix.littleEndian count.length data.length ++ data) ++ rest = bytes
          rw [hlength, Radix.littleEndian_ofLittleEndian, List.append_assoc,
            append_of_split hdata, append_of_split hcount]

/-- What is read of the bytes at a place are instructions without gaps from there on, and the bytes
are how they are written. -/
theorem encode_of_disassembleFrom {offset : Nat} {bytes : List UInt8} {code : List Instruction}
    (h : disassembleFrom offset bytes = .ok code) :
    IsCodeFrom offset code ∧ encode code = bytes := by
  fun_induction disassembleFrom offset bytes generalizing code with
  | case1 =>
    cases h
    exact ⟨trivial, rfl⟩
  | case2 => cases h
  | case3 => cases h
  | case4 => cases h
  | @case5 offset b bytes op hop operand rest hread i tail htail ih =>
    cases h
    obtain ⟨hmatches, hoperand⟩ := OperandLayout.encode_of_read hread
    obtain ⟨hcode, hrest⟩ := ih htail
    refine ⟨⟨rfl, hmatches, hcode⟩, ?_⟩
    show (op.byte :: op.layout.encode operand) ++ encode tail = b :: bytes
    rw [hrest, Opcode.byte_of_ofByte? hop, List.cons_append, hoperand]

/-! ## Well-formed instructions -/

/-- Whether each instruction has an operand that its opcode can have and stands where the
instructions before it end. -/
def WellFormed (code : List Instruction) : Prop :=
  ∀ before i after, code = before ++ i :: after →
    i.opcode.layout.Matches i.operand ∧ i.offset = (encode before).length

/-- To follow one another without gaps is to stand where the ones before end. -/
theorem isCodeFrom_iff {offset : Nat} {code : List Instruction} :
    IsCodeFrom offset code ↔ ∀ before i after, code = before ++ i :: after →
      i.opcode.layout.Matches i.operand ∧ i.offset = offset + (encode before).length := by
  induction code generalizing offset with
  | nil =>
    constructor
    · intro _ before i after h
      simp at h
    · intro _
      trivial
  | cons j rest ih =>
    have hlength (before : List Instruction) :
        offset + (encode (j :: before)).length
          = offset + j.encode.length + (encode before).length := by
      show offset + (j.encode ++ encode before).length = _
      rw [List.length_append, Nat.add_assoc]
    constructor
    · rintro ⟨hplace, hmatches, hrest⟩ before i after h
      cases before with
      | nil =>
        obtain ⟨rfl, rfl⟩ := List.cons.inj h
        exact ⟨hmatches, hplace⟩
      | cons k before =>
        obtain ⟨rfl, hafter⟩ := List.cons.inj h
        rw [hlength]
        exact ih.mp hrest before i after hafter
    · intro h
      obtain ⟨hmatches, hplace⟩ := h [] j rest rfl
      refine ⟨hplace, hmatches, ih.mpr ?_⟩
      intro before i after hafter
      rw [← hlength]
      apply h (j :: before) i after
      rw [hafter, List.cons_append]

theorem wellFormed_iff {code : List Instruction} : WellFormed code ↔ IsCodeFrom 0 code := by
  rw [isCodeFrom_iff]
  simp only [Nat.zero_add]
  rfl

/-- An instruction alone is well formed at the start of a script, if its operand fits. -/
theorem wellFormed_singleton {i : Instruction} :
    WellFormed [i] ↔ i.offset = 0 ∧ i.opcode.layout.Matches i.operand := by
  rw [wellFormed_iff]
  simp [IsCodeFrom]

/-- A script disassembles to the well-formed instructions that are written as it. -/
theorem disassemble_eq_ok_iff {script : List UInt8} {code : List Instruction} :
    disassemble script = .ok code ↔ WellFormed code ∧ encode code = script := by
  rw [wellFormed_iff]
  constructor
  · intro h
    exact encode_of_disassembleFrom h
  · rintro ⟨hcode, rfl⟩
    exact disassembleFrom_encode hcode

/-- The operand of an instruction of a script is one that its opcode can have. -/
theorem matches_of_disassemble {script : List UInt8} {code : List Instruction}
    (h : disassemble script = .ok code) {i : Instruction} (hi : i ∈ code) :
    i.opcode.layout.Matches i.operand := by
  obtain ⟨before, after, hsplit⟩ := List.append_of_mem hi
  exact ((disassemble_eq_ok_iff.mp h).1 before i after hsplit).1

/-- The disassembler accepts just the scripts that are written from well-formed instructions, and
gives these instructions, of which there is one list for each script. -/
theorem disassemble_exact (script : List UInt8) :
    (∀ code, disassemble script = .ok code → WellFormed code ∧ encode code = script) ∧
    (∀ code, WellFormed code → disassemble (encode code) = .ok code) ∧
    ((∃ code, disassemble script = .ok code) ↔ ∃! code, WellFormed code ∧ encode code = script) ∧
    (∀ code, WellFormed code → ∀ other, WellFormed other → encode code = encode other →
      code = other) := by
  have hcomplete (code : List Instruction) (h : WellFormed code) :
      disassemble (encode code) = .ok code :=
    disassemble_eq_ok_iff.mpr ⟨h, rfl⟩
  refine ⟨fun code => disassemble_eq_ok_iff.mp, hcomplete, ?_, ?_⟩
  · constructor
    · rintro ⟨code, h⟩
      refine ⟨code, disassemble_eq_ok_iff.mp h, ?_⟩
      intro other hother
      have hsame : disassemble script = .ok other := disassemble_eq_ok_iff.mpr hother
      rw [h] at hsame
      exact (Except.ok.inj hsame).symm
    · rintro ⟨code, h, _⟩
      exact ⟨code, disassemble_eq_ok_iff.mpr h⟩
  · intro code hcode other hother hsame
    have hread := hcomplete code hcode
    rw [hsame, hcomplete other hother] at hread
    exact (Except.ok.inj hread).symm

end Registrar.Script
