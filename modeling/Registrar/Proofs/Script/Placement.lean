import Mathlib
import Registrar.Proofs.Radix
import Registrar.Script.Disassembly

/-!
# Instructions written one after the other

A `Piece` is an instruction that has no place yet. Pieces that are written one after the other get
the places where the ones before them end, and if each operand fits its opcode, the disassembly of
the bytes finds just these instructions at just these places.
-/

namespace Registrar.Script

/-! ## Reading what was written -/

/-- A byte that stands for an opcode is read as that opcode. -/
@[simp] theorem Opcode.ofByte?_byte (op : Opcode) : Opcode.ofByte? op.byte = some op := by
  cases op with
  | pushBytes n =>
    have hbyte : (UInt8.ofNat (n.val + 1)).toNat = n.val + 1 := by
      rw [UInt8.toNat_ofNat']
      omega
    simp only [Opcode.byte, Opcode.ofByte?, hbyte]
    rw [dif_pos (by omega)]
    simp
  | pushInt n =>
    have hbyte : (UInt8.ofNat (0x51 + n.val)).toNat = 0x51 + n.val := by
      rw [UInt8.toNat_ofNat']
      omega
    simp only [Opcode.byte, Opcode.ofByte?, hbyte]
    rw [dif_neg (by omega), dif_pos (by omega)]
    simp
  | _ => rfl

/-- What stands in front is split off, whatever follows. -/
theorem split_append {n : Nat} {front : List UInt8} (h : front.length = n) (rest : List UInt8) :
    split n (front ++ rest) = .ok (front, rest) := by
  subst h
  unfold split
  simp

/-- An operand that fits its layout is read back and leaves what follows alone. -/
theorem OperandLayout.read_encode {layout : OperandLayout} {operand : Option (List UInt8)}
    (h : layout.Matches operand) (rest : List UInt8) :
    layout.read (layout.encode operand ++ rest) = .ok (operand, rest) := by
  cases layout with
  | absent =>
    rw [show operand = none from h]
    rfl
  | fixed size =>
    obtain ⟨data, rfl, hsize⟩ := h
    simp only [OperandLayout.encode, OperandLayout.read, split_append hsize]
  | counted width =>
    obtain ⟨data, rfl, hcount⟩ := h
    have hlength : Radix.ofLittleEndian (Radix.littleEndian width data.length) = data.length :=
      Radix.ofLittleEndian_littleEndian hcount
    simp only [OperandLayout.encode, OperandLayout.read, List.append_assoc,
      split_append (Radix.length_littleEndian width data.length), hlength, split_append rfl]

/-- A byte that stands for no opcode ends the walk. -/
theorem disassembleFrom_unknown {b : UInt8} (hop : Opcode.ofByte? b = none) (offset : Nat)
    (bytes : List UInt8) :
    disassembleFrom offset (b :: bytes) = .error (.unknownOpcode b offset) := by
  rw [disassembleFrom]
  simp only [hop]

/-- An opcode that has too few bytes for its operand ends the walk. -/
theorem disassembleFrom_truncated {b : UInt8} {op : Opcode} (hop : Opcode.ofByte? b = some op)
    {bytes : List UInt8} {e : Shortage} (hread : op.layout.read bytes = .error e) (offset : Nat) :
    disassembleFrom offset (b :: bytes)
      = .error (.truncatedOperand op offset e.needed e.available) := by
  rw [disassembleFrom]
  simp only [hop]
  split
  · next hfail =>
    rw [hread] at hfail
    cases hfail
    rfl
  · next hok =>
    rw [hread] at hok
    cases hok

/-- An opcode that has its operand is an instruction, and the walk goes on behind it. -/
theorem disassembleFrom_read {b : UInt8} {op : Opcode} (hop : Opcode.ofByte? b = some op)
    {bytes rest : List UInt8} {operand : Option (List UInt8)}
    (hread : op.layout.read bytes = .ok (operand, rest)) (offset : Nat) :
    disassembleFrom offset (b :: bytes)
      = (disassembleFrom (offset + (Instruction.mk offset op operand).encode.length) rest).map
          (⟨offset, op, operand⟩ :: ·) := by
  rw [disassembleFrom]
  simp only [hop]
  split
  · next hfail =>
    rw [hread] at hfail
    cases hfail
  · next hok =>
    rw [hread] at hok
    cases hok
    cases disassembleFrom _ rest <;> rfl

/-- An instruction at its place is read first, and then what follows it. -/
theorem disassembleFrom_encode_append {offset : Nat} {i : Instruction} (hplace : i.offset = offset)
    (hfits : i.opcode.layout.Matches i.operand) (rest : List UInt8) :
    disassembleFrom offset (i.encode ++ rest)
      = (disassembleFrom (offset + i.encode.length) rest).map (i :: ·) := by
  subst hplace
  exact disassembleFrom_read (Opcode.ofByte?_byte i.opcode) (OperandLayout.read_encode hfits rest)
    i.offset

/-- Instructions that follow one another without gaps are found again. -/
theorem disassembleFrom_encode {offset : Nat} {code : List Instruction}
    (h : IsCodeFrom offset code) : disassembleFrom offset (encode code) = .ok code := by
  induction code generalizing offset with
  | nil =>
    unfold encode
    rw [List.flatMap_nil, disassembleFrom]
  | cons i rest ih =>
    obtain ⟨hplace, hfits, hrest⟩ := h
    have hbytes : encode (i :: rest) = i.encode ++ encode rest := rfl
    rw [hbytes, disassembleFrom_encode_append hplace hfits, ih hrest]
    rfl

/-! ## Pieces -/

/-- An opcode and its operand, without a place. -/
structure Piece where
  opcode : Opcode
  operand : Option (List UInt8)
  deriving DecidableEq, Repr

namespace Piece

/-- The instruction that a piece is at a place. -/
def instruction (p : Piece) (offset : Nat) : Instruction :=
  ⟨offset, p.opcode, p.operand⟩

/-- The bytes of a piece. -/
def bytes (p : Piece) : List UInt8 :=
  p.opcode.byte :: p.opcode.layout.encode p.operand

/-- Whether the operand fits the opcode. -/
def Fits (p : Piece) : Prop :=
  p.opcode.layout.Matches p.operand

end Piece

/-- The bytes of pieces, one after the other. -/
def written (ps : List Piece) : List UInt8 :=
  ps.flatMap Piece.bytes

/-- Pieces as instructions, the first at `offset` and each other where the one before it ends. -/
def place (offset : Nat) : List Piece → List Instruction
  | [] => []
  | p :: rest => p.instruction offset :: place (offset + p.bytes.length) rest

theorem written_append (ps qs : List Piece) : written (ps ++ qs) = written ps ++ written qs :=
  List.flatMap_append

theorem place_append (offset : Nat) (ps qs : List Piece) :
    place offset (ps ++ qs) = place offset ps ++ place (offset + (written ps).length) qs := by
  induction ps generalizing offset with
  | nil => rfl
  | cons p ps ih =>
    have hlength : (written (p :: ps)).length = p.bytes.length + (written ps).length := by
      unfold written
      rw [List.flatMap_cons, List.length_append]
    rw [List.cons_append, place, ih, hlength, Nat.add_assoc]
    rfl

theorem encode_place (offset : Nat) (ps : List Piece) : encode (place offset ps) = written ps := by
  induction ps generalizing offset with
  | nil => rfl
  | cons p ps ih =>
    show p.bytes ++ encode (place (offset + p.bytes.length) ps) = p.bytes ++ written ps
    rw [ih]

theorem isCodeFrom_place {offset : Nat} {ps : List Piece} (h : ∀ p ∈ ps, p.Fits) :
    IsCodeFrom offset (place offset ps) := by
  induction ps generalizing offset with
  | nil => trivial
  | cons p ps ih =>
    exact ⟨rfl, h p List.mem_cons_self, ih fun q hq => h q (List.mem_cons_of_mem _ hq)⟩

/-- What does not depend on the place can be computed of the pieces. -/
theorem map_place {α : Type} {f : Instruction → α} {g : Piece → α}
    (h : ∀ p offset, f (p.instruction offset) = g p) {offset : Nat} {ps : List Piece} :
    (place offset ps).map f = ps.map g := by
  induction ps generalizing offset with
  | nil => rfl
  | cons p ps ih => rw [place, List.map_cons, List.map_cons, h, ih]

/-- What does not depend on the place can be asked of the pieces. -/
theorem forall_mem_place {offset : Nat} {ps : List Piece} {q : Instruction → Prop}
    (h : ∀ p ∈ ps, ∀ offset, q (p.instruction offset)) : ∀ i ∈ place offset ps, q i := by
  induction ps generalizing offset with
  | nil =>
    intro i hi
    cases hi
  | cons p ps ih =>
    intro i hi
    rcases List.mem_cons.mp hi with rfl | hi
    · exact h p List.mem_cons_self offset
    · exact ih (fun q hq => h q (List.mem_cons_of_mem _ hq)) i hi

/-- Pieces that fit are found where they were written. -/
theorem disassemble_written {ps : List Piece} (h : ∀ p ∈ ps, p.Fits) :
    disassemble (written ps) = .ok (place 0 ps) := by
  rw [← encode_place 0]
  exact disassembleFrom_encode (isCodeFrom_place h)

/-- A piece that fits is found alone. -/
theorem disassemble_bytes {p : Piece} (h : p.Fits) :
    disassemble p.bytes = .ok [p.instruction 0] := by
  have hwritten : written [p] = p.bytes := List.flatMap_singleton _ _
  rw [← hwritten]
  exact disassemble_written (List.forall_mem_singleton.mpr h)

end Registrar.Script
