import Mathlib
import Registrar.Proofs.Contract.Invocation
import Registrar.Proofs.Script.RoundTrip

/-!
# Numbers on the stack

A number is pushed in the shortest form that spells it, and a count is read where the form has fifteen
bits and no sign. So a count that is read is the number that stands on the stack, whatever instruction
pushed it; and a number that a builder pushes is read as a count just if fifteen bits hold it.
-/

namespace Registrar.Contract

open Script
open Radix (ofTwosComplement)

/-- A pushed number is one instruction. -/
theorem disassemble_pushInt (v : UInt64) :
    disassemble (Build.pushInt v.toNat) = .ok [(intPiece v.toNat).instruction 0] := by
  rw [← bytes_intPiece]
  apply disassemble_bytes
  exact fits_intPiece (length_signedDigits_lt v.toNat_lt)

/-- An opcode that pushes a number by itself is the one that a builder pushes the number by. -/
theorem intPiece_of_smallInt? {op : Opcode} {n : Nat} (h : op.smallInt? = some n) :
    n ≤ 16 ∧ intPiece n = ⟨op, none⟩ := by
  cases op with
  | push0 =>
    cases h
    exact ⟨by decide, rfl⟩
  | pushInt k =>
    cases h
    refine ⟨by omega, ?_⟩
    unfold intPiece Opcode.ofSmallInt?
    rw [if_neg (by omega), dif_pos (by omega)]
    rfl
  | _ => cases h

/-- Pushed bytes are read as a count just if there are two of them at most and the last one's sign is
clear; the count is then what they spell. -/
theorem count?_pushBytes_eq_some {offset n : Nat} {k : Fin 75} {data : List UInt8} :
    count? ⟨offset, .pushBytes k, some data⟩ = some n ↔
      data.length ≤ 2 ∧ (∀ b, data.getLast? = some b → b.toNat < 128) ∧
        Radix.ofLittleEndian data = n := by
  unfold count? Opcode.smallInt? Opcode.isPushBytes
  dsimp only
  rw [if_pos rfl, ← Nat.not_lt]
  by_cases hlong : 2 < data.length
  · simp [hlong]
  · cases hlast : data.getLast? with
    | none => simp [hlong]
    | some b => simp [hlong]

/-- A count that an instruction of a script is read as is the number that it leaves on the stack, and
fifteen bits hold it. -/
theorem pushes_of_count? {i : Instruction} (hmatches : i.opcode.layout.Matches i.operand) {n : Nat}
    (h : count? i = some n) :
    n ≤ maxCount ∧ ∃ value, i.pushValue? = some value ∧ ofTwosComplement value = n := by
  obtain ⟨offset, op, operand⟩ := i
  dsimp only at hmatches
  cases hsmall : op.smallInt? with
  | some m =>
    -- the opcode takes no operand, so it stands there as a builder writes it
    obtain rfl : m = n := by
      unfold count? at h
      dsimp only at h
      rw [hsmall] at h
      exact Option.some.inj h
    obtain ⟨hle, hpiece⟩ := intPiece_of_smallInt? hsmall
    have hoperand : operand = none := by
      cases op with
      | push0 | pushInt k => exact hmatches
      | _ => cases hsmall
    refine ⟨hle.trans (by decide), _, ?_, Build.ofTwosComplement_signedDigits m⟩
    rw [← pushValue?_intPiece m offset, hpiece, hoperand]
    rfl
  | none =>
    cases op with
    | pushBytes k =>
      obtain ⟨data, rfl, -⟩ := hmatches
      obtain ⟨hlength, hclear, rfl⟩ := count?_pushBytes_eq_some.mp h
      have hhalf : 2 * Radix.ofLittleEndian data < 256 ^ data.length :=
        Radix.two_mul_ofLittleEndian_lt hclear
      have hroom : 256 ^ data.length ≤ 256 ^ 2 := Nat.pow_le_pow_right (by omega) hlength
      refine ⟨?_, data, rfl, Radix.ofTwosComplement_of_clear hclear⟩
      show Radix.ofLittleEndian data ≤ 32767
      omega
    | push0 | pushInt k => cases hsmall
    | _ => cases h

/-- **Integers are pushed minimally and read back within range.** A number of 64 bits is pushed by one
instruction, whose value spells the number in two's complement while no shorter bytes do, and which is
read as a count, namely the number, just if the number is 32767 at most. And whatever instruction of a
script is read as a count, the count is 32767 at most and the number that its value spells. -/
theorem integers_pushed_minimally :
    (∀ v : UInt64, ∃ i value, disassemble (Build.pushInt v.toNat) = .ok [i] ∧
      i.pushValue? = some value ∧ ofTwosComplement value = v.toNat ∧
      (∀ other, ofTwosComplement other = v.toNat → value.length ≤ other.length) ∧
      count? i = if v.toNat ≤ 32767 then some v.toNat else none) ∧
    (∀ script code, disassemble script = .ok code → ∀ i ∈ code, ∀ n, count? i = some n →
      n ≤ 32767 ∧ ∃ value, i.pushValue? = some value ∧ ofTwosComplement value = n) := by
  constructor
  · intro v
    refine ⟨_, _, disassemble_pushInt v, pushValue?_intPiece v.toNat 0,
      Build.ofTwosComplement_signedDigits v.toNat, ?_, count?_intPiece v.toNat 0⟩
    intro other hother
    exact Build.length_signedDigits_le hother
  · intro script code hcode i hi n hn
    exact pushes_of_count? (matches_of_disassemble hcode hi) hn

/-- The largest count and the number after it; and a count spelled with a byte more than it needs. -/
theorem integers_pushed_minimally_edges :
    (∃ i, disassemble (Build.pushInt 32767) = .ok [i] ∧ count? i = some 32767) ∧
    (∃ i, disassemble (Build.pushInt 32768) = .ok [i] ∧ count? i = none) ∧
    count? ⟨0, .pushBytes 1, some [5, 0]⟩ = some 5 ∧ ofTwosComplement [5, 0] = 5 := by
  obtain ⟨hpushed, hread⟩ := integers_pushed_minimally
  obtain ⟨i, -, hi, -, -, -, hcount⟩ := hpushed 32767
  obtain ⟨j, -, hj, -, -, -, hbeyond⟩ := hpushed 32768
  have hcode : disassemble [2, 5, 0] = .ok [⟨0, .pushBytes 1, some [5, 0]⟩] := by cbv
  have hfive : count? ⟨0, .pushBytes 1, some [5, 0]⟩ = some 5 := by decide
  obtain ⟨-, value, hvalue, hnumber⟩ := hread _ _ hcode _ (List.mem_singleton_self _) 5 hfive
  rw [← Option.some.inj hvalue] at hnumber
  exact ⟨⟨i, hi, hcount⟩, ⟨j, hj, hbeyond⟩, hfive, hnumber⟩

end Registrar.Contract
