import Mathlib
import Registrar.Proofs.Script.Assembly
import Registrar.Proofs.Script.Grammar

/-!
# The shortest push of data

Data stands in a script behind an opcode and, unless the opcode tells how long it is, behind a count.
So two pushes of the same data differ in length just as their counts do. A builder takes an opcode that
tells the length if there is one, and otherwise the narrowest count that holds it; no other push of the
data has a count as narrow.
-/

namespace Registrar.Script

/-! ## How long an instruction is -/

/-- How many bytes of a layout tell the length of the data. -/
def OperandLayout.countWidth : OperandLayout → Nat
  | .absent | .fixed _ => 0
  | .counted width => width

/-- An operand that fits is written as its count and its data. -/
theorem OperandLayout.length_encode {layout : OperandLayout} {operand : Option (List UInt8)}
    (h : layout.Matches operand) :
    (layout.encode operand).length = layout.countWidth + (operand.getD []).length := by
  cases layout with
  | absent =>
    rw [show operand = none from h]
    rfl
  | fixed size =>
    obtain ⟨data, rfl, -⟩ := h
    simp [OperandLayout.encode, OperandLayout.countWidth]
  | counted width =>
    obtain ⟨data, rfl, -⟩ := h
    simp [OperandLayout.encode, OperandLayout.countWidth, Radix.length_littleEndian]

/-- An instruction is as long as its opcode, its count and its data. -/
theorem Instruction.length_encode {i : Instruction} (h : i.opcode.layout.Matches i.operand) :
    i.encode.length = 1 + i.opcode.layout.countWidth + (i.operand.getD []).length := by
  show (i.opcode.byte :: i.opcode.layout.encode i.operand).length = _
  rw [List.length_cons, OperandLayout.length_encode h]
  omega

/-! ## Pushes of data -/

/-- Whether the opcode pushes data that the script holds. The opcodes that push a number by
themselves are left out, except for the one of zero, which is also the empty byte string. -/
def Opcode.isDataPush : Opcode → Bool
  | push0 | pushBytes _ | pushData1 | pushData2 | pushData4 => true
  | _ => false

/-- Whether an instruction, as a script of its own, pushes these bytes as data. -/
structure Instruction.PushesData (data : List UInt8) (i : Instruction) : Prop where
  isDataPush : i.opcode.isDataPush = true
  wellFormed : WellFormed [i]
  value : i.pushValue? = some data

theorem isDataPush_dataPiece (data : List UInt8) : (dataPiece data).opcode.isDataPush = true := by
  unfold dataPiece
  split_ifs <;> rfl

/-- An opcode that tells how long the data is pushes it with no count. -/
theorem dataPiece_of_length {data : List UInt8} {n : Fin 75} (h : data.length = n + 1) :
    dataPiece data = ⟨.pushBytes n, some data⟩ := by
  have hindex : data.length - 1 = n := by omega
  unfold dataPiece
  rw [if_neg (by omega), dif_pos (by omega)]
  simp only [hindex, Fin.eta]

/-- Of the opcodes with a count, a builder takes the first whose count holds the length: any other that
does has a wider count. -/
theorem dataPiece_eq_or_countWidth_lt {op : Opcode} {width : Nat} {data : List UInt8}
    (hop : op.isDataPush = true) (hcounted : op.layout = .counted width)
    (hroom : data.length < 256 ^ width) :
    dataPiece data = ⟨op, some data⟩ ∨ (dataPiece data).opcode.layout.countWidth < width := by
  unfold dataPiece
  cases op with
  | push0 | pushBytes n => cases hcounted
  | pushData1 =>
    cases hcounted
    split_ifs with h0 h75 h255
    · exact .inr (Nat.succ_pos _)
    · exact .inr (Nat.succ_pos _)
    · exact .inl rfl
    all_goals omega
  | pushData2 =>
    cases hcounted
    split_ifs with h0 h75 h255 h65535
    · exact .inr (Nat.succ_pos _)
    · exact .inr (Nat.succ_pos _)
    · exact .inr Nat.one_lt_two
    · exact .inl rfl
    · omega
  | pushData4 =>
    cases hcounted
    split_ifs with h0 h75 h255 h65535
    · exact .inr (Nat.succ_pos _)
    · exact .inr (Nat.succ_pos _)
    · exact .inr (show 1 < 4 by decide)
    · exact .inr (show 2 < 4 by decide)
    · exact .inl rfl
  | _ => cases hop

/-- What a builder takes pushes the data. -/
theorem pushesData_dataPiece {data : List UInt8} (h : data.length < 2 ^ 32) :
    ((dataPiece data).instruction 0).PushesData data where
  isDataPush := isDataPush_dataPiece data
  wellFormed := wellFormed_singleton.mpr ⟨rfl, fits_dataPiece h⟩
  value := pushValue?_dataPiece data 0

namespace Instruction.PushesData

variable {i : Instruction} {data : List UInt8}

theorem fits (h : i.PushesData data) : i.opcode.layout.Matches i.operand :=
  (wellFormed_singleton.mp h.wellFormed).2

/-- The operand is the data, and where there is none the data is empty. -/
theorem operand_getD (h : i.PushesData data) : i.operand.getD [] = data := by
  obtain ⟨offset, op, operand⟩ := i
  have hvalue := h.value
  cases operand with
  | some pushed =>
    have hop : op.isPush = true ∧ pushed = data := by
      simpa [Instruction.pushValue?] using hvalue
    exact hop.2
  | none =>
    have hpush := h.isDataPush
    have hfits := h.fits
    cases op with
    | push0 => exact Option.some.inj hvalue
    | pushBytes n | pushData1 | pushData2 | pushData4 =>
      obtain ⟨pushed, hpushed, -⟩ := hfits
      cases hpushed
    | _ => cases hpush

/-- A push of data takes a byte for its opcode, its count, and the data. -/
theorem length_encode (h : i.PushesData data) :
    i.encode.length = 1 + i.opcode.layout.countWidth + data.length := by
  rw [Instruction.length_encode h.fits, h.operand_getD]

/-- A push of data is the one that a builder takes, or its count is wider. An opcode that tells the
length leaves no choice, and of the others a builder takes the one with the narrowest count. -/
theorem eq_or_countWidth_lt (h : i.PushesData data) :
    i = (dataPiece data).instruction 0 ∨
      (dataPiece data).opcode.layout.countWidth < i.opcode.layout.countWidth := by
  obtain ⟨offset, op, operand⟩ := i
  obtain rfl : offset = 0 := (wellFormed_singleton.mp h.wellFormed).1
  have hform := h.isDataPush
  have hfits := h.fits
  have hdata := h.operand_getD
  cases op with
  | push0 =>
    obtain rfl : operand = none := hfits
    obtain rfl : [] = data := hdata
    exact .inl rfl
  | pushBytes n =>
    obtain ⟨pushed, rfl, hlength⟩ := hfits
    obtain rfl : pushed = data := hdata
    left
    rw [dataPiece_of_length hlength]
    rfl
  | pushData1 | pushData2 | pushData4 =>
    -- the count of this push holds the length, as the one that a builder takes does
    obtain ⟨pushed, rfl, hroom⟩ := hfits
    obtain rfl : pushed = data := hdata
    rcases dataPiece_eq_or_countWidth_lt hform rfl hroom with hsame | hnarrower
    · left
      rw [hsame]
      rfl
    · exact .inr hnarrower
  | _ => cases hform

end Instruction.PushesData

/-- **A builder picks the one shortest push of data.** What it writes for a byte string of fewer than
`2 ^ 32` bytes is one instruction, which pushes the byte string as data; and every other instruction
that does so is longer. -/
theorem pushBytes_shortest {data : List UInt8} (h : data.length < 2 ^ 32) :
    ∃ i, disassemble (Build.pushBytes data) = .ok [i] ∧ i.encode = Build.pushBytes data ∧
      i.PushesData data ∧
      ∀ j : Instruction, j.PushesData data → j ≠ i → i.encode.length < j.encode.length := by
  have hpush := pushesData_dataPiece h
  refine ⟨(dataPiece data).instruction 0, ?_, bytes_dataPiece data, hpush, ?_⟩
  · rw [← bytes_dataPiece]
    exact disassemble_bytes (fits_dataPiece h)
  · intro j hj hother
    rcases hj.eq_or_countWidth_lt with hsame | hwider
    · exact absurd hsame hother
    · rw [hpush.length_encode, hj.length_encode]
      show 1 + (dataPiece data).opcode.layout.countWidth + data.length < _
      omega

/-- The least number of bytes that no opcode tells. -/
def seventySix : List UInt8 :=
  List.replicate 76 7

/-- The byte string is pushed with a count of one byte. A count of two bytes pushes it as well, and is
longer. -/
theorem pushBytes_shortest_seventySix :
    seventySix.length < 2 ^ 32 ∧
    disassemble (Build.pushBytes seventySix) = .ok [⟨0, .pushData1, some seventySix⟩] ∧
    (Instruction.mk 0 .pushData2 (some seventySix)).PushesData seventySix ∧
    (Instruction.mk 0 .pushData1 (some seventySix)).encode.length
      < (Instruction.mk 0 .pushData2 (some seventySix)).encode.length := by
  have hlength : seventySix.length < 2 ^ 32 := by decide
  have hread : disassemble (Build.pushBytes seventySix)
      = .ok [⟨0, .pushData1, some seventySix⟩] := by cbv
  have hwider : (Instruction.mk 0 .pushData2 (some seventySix)).PushesData seventySix :=
    ⟨rfl, wellFormed_singleton.mpr ⟨rfl, seventySix, rfl, by decide⟩, rfl⟩
  obtain ⟨i, hcode, -, -, hshortest⟩ := pushBytes_shortest hlength
  obtain rfl : ⟨0, .pushData1, some seventySix⟩ = i := by
    rw [hread] at hcode
    exact List.singleton_injective (Except.ok.inj hcode)
  exact ⟨hlength, hread, hwider, hshortest _ hwider (by simp)⟩

end Registrar.Script
