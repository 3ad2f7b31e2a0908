import Mathlib
import Registrar.Proofs.Script.Placement
import Registrar.Proofs.Text.Utf8
import Registrar.Script.Builder

/-!
# What the steps of a builder stand for

Each step of assembling a script writes the bytes of some pieces. As long as every byte string that
is pushed has a length that fits in four bytes, every service name one that fits in one byte, and no
opcode is emitted without its operand, the pieces fit, and the disassembly of an assembled script is
just the pieces of its steps, at their places.
-/

namespace Registrar.Script

/-! ## Pushes -/

/-- The instruction that pushes a byte string. -/
def dataPiece (data : List UInt8) : Piece :=
  if data.length = 0 then ⟨.push0, none⟩
  else if h : data.length ≤ 75 then ⟨.pushBytes ⟨data.length - 1, by omega⟩, some data⟩
  else if data.length ≤ 255 then ⟨.pushData1, some data⟩
  else if data.length ≤ 65535 then ⟨.pushData2, some data⟩
  else ⟨.pushData4, some data⟩

/-- The instruction that pushes a text. -/
def textPiece (text : String) : Piece :=
  dataPiece (Text.Utf8.encode text)

/-- The instruction that pushes a number. -/
def intPiece (n : Nat) : Piece :=
  match Opcode.ofSmallInt? n with
  | some op => ⟨op, none⟩
  | none => dataPiece (Build.signedDigits n)

theorem bytes_dataPiece (data : List UInt8) : (dataPiece data).bytes = Build.pushBytes data := by
  unfold dataPiece Build.pushBytes
  simp only
  split_ifs with h0 h75 h255 h65535
  · rfl
  · unfold Piece.bytes
    have hbyte : data.length - 1 + 1 = data.length := by omega
    simp only [Opcode.byte, Opcode.layout, OperandLayout.encode, hbyte]
  · rfl
  · rfl
  · rfl

theorem bytes_intPiece (n : Nat) : (intPiece n).bytes = Build.pushInt n := by
  unfold intPiece Build.pushInt
  cases hop : Opcode.ofSmallInt? n with
  | none => exact bytes_dataPiece _
  | some op =>
    unfold Piece.bytes Build.emit
    simp only [List.cons.injEq, true_and]
    unfold Opcode.ofSmallInt? at hop
    split_ifs at hop <;> cases hop <;> rfl

/-- A pushed byte string is the operand, except that an empty one leaves none. -/
theorem operand_dataPiece (data : List UInt8) :
    (dataPiece data).operand = if data = [] then none else some data := by
  unfold dataPiece
  by_cases h0 : data = []
  · subst h0
    rfl
  · rw [if_neg (by rwa [List.length_eq_zero_iff]), if_neg h0]
    split_ifs <;> rfl

/-- The value of a pushed byte string is the byte string. -/
theorem pushValue?_dataPiece (data : List UInt8) (offset : Nat) :
    ((dataPiece data).instruction offset).pushValue? = some data := by
  unfold dataPiece
  split_ifs with h0
  · rw [List.eq_nil_of_length_eq_zero h0]
    rfl
  all_goals rfl

/-- Whatever pushes a byte string is a push. -/
theorem isPush_dataPiece (data : List UInt8) : (dataPiece data).opcode.isPush = true := by
  unfold dataPiece
  split_ifs <;> rfl

theorem isPush_intPiece (n : Nat) : (intPiece n).opcode.isPush = true := by
  unfold intPiece Opcode.ofSmallInt?
  split_ifs
  · rfl
  · rfl
  · exact isPush_dataPiece _

/-- A byte string of a length that four bytes can hold is pushed with an operand that fits. -/
theorem fits_dataPiece {data : List UInt8} (h : data.length < 2 ^ 32) : (dataPiece data).Fits := by
  unfold dataPiece
  split_ifs with h0 h75 h255 h65535
  · rfl
  · refine ⟨data, rfl, ?_⟩
    show data.length = data.length - 1 + 1
    omega
  · exact ⟨data, rfl, Nat.lt_succ_of_le h255⟩
  · exact ⟨data, rfl, Nat.lt_succ_of_le h65535⟩
  · exact ⟨data, rfl, h⟩

theorem fits_intPiece {n : Nat} (h : (Build.signedDigits n).length < 2 ^ 32) :
    (intPiece n).Fits := by
  unfold intPiece
  cases hop : Opcode.ofSmallInt? n with
  | none => exact fits_dataPiece h
  | some op =>
    unfold Opcode.ofSmallInt? at hop
    split_ifs at hop <;> cases hop <;> rfl

/-! ## Calls -/

/-- Whether a piece is this opcode with this operand. -/
def Piece.Is (op : Opcode) (data : List UInt8) (p : Piece) : Prop :=
  p.opcode = op ∧ p.operand = some data

/-- Data that is pushed is never taken for an instruction that does something else. -/
theorem Piece.not_is_of_isPush {op : Opcode} (hop : op.isPush = false) {data : List UInt8}
    {p : Piece} (h : p.opcode.isPush = true) : ¬ p.Is op data := by
  rintro ⟨rfl, _⟩
  rw [hop] at h
  cases h

theorem Piece.decide_is {op : Opcode} {data : List UInt8} {p : Piece} (h : ¬ p.Is op data) :
    (decide (p.opcode = op) && decide (p.operand = some data)) = false := by
  rw [← Bool.decide_and]
  exact decide_eq_false h

/-! ## Steps -/

/-- The instructions that make a call ready: the arguments, their count, and the method's name. -/
def preparation (method : String) (args : List (List UInt8)) : List Piece :=
  args.reverse.map dataPiece ++ [intPiece args.length, ⟨.pack, none⟩, textPiece method]

/-- Making a call ready pushes and packs, and nothing else. -/
theorem not_is_preparation {op : Opcode} (hpush : op.isPush = false) (hpack : op ≠ .pack)
    {data : List UInt8} (method : String) (args : List (List UInt8)) :
    ∀ p ∈ preparation method args, ¬ p.Is op data := by
  simp only [preparation, List.forall_mem_append, List.forall_mem_map, List.forall_mem_cons]
  exact ⟨fun arg _ => Piece.not_is_of_isPush hpush (isPush_dataPiece arg),
    Piece.not_is_of_isPush hpush (isPush_intPiece _), fun h => hpack h.1.symm,
    Piece.not_is_of_isPush hpush (isPush_dataPiece _), List.forall_mem_nil _⟩

/-- The instructions that describe a contract before its bytecode. -/
def description (name : String) : List Piece :=
  [textPiece "", textPiece "", textPiece "", textPiece "1.0", textPiece name, intPiece 1,
    dataPiece [0x05], dataPiece [0x07, 0x10]]

theorem isPush_description (name : String) : ∀ p ∈ description name, p.opcode.isPush = true := by
  simp only [description, textPiece, List.forall_mem_cons, isPush_dataPiece, isPush_intPiece,
    true_and]
  exact List.forall_mem_nil _

/-- The instructions that a step stands for. -/
def Step.pieces : Step → List Piece
  | .emit op => [⟨op, none⟩]
  | .pushBytes data => [dataPiece data]
  | .pushText text => [textPiece text]
  | .pushInt n => [intPiece n]
  | .sysCall name => [⟨.sysCall, some (Text.Utf8.encode name)⟩]
  | .appCall contract => [⟨.appCall, some contract.bytes⟩]
  | .invoke contract method args =>
    preparation method args ++ [⟨.appCall, some contract.bytes⟩]
  | .deploy bytecode name =>
    description name ++ [dataPiece bytecode, ⟨.sysCall, some (Text.Utf8.encode createService)⟩]

/-- The instructions of a step that call a service or a contract. -/
def Step.calls : Step → List Piece
  | .emit _ | .pushBytes _ | .pushText _ | .pushInt _ => []
  | .sysCall name => [⟨.sysCall, some (Text.Utf8.encode name)⟩]
  | .appCall contract | .invoke contract _ _ => [⟨.appCall, some contract.bytes⟩]
  | .deploy _ _ => [⟨.sysCall, some (Text.Utf8.encode createService)⟩]

/-- An instruction of a step that has an operand, and neither pushes nor packs, is one that calls. -/
theorem mem_calls_of_is {op : Opcode} (hpush : op.isPush = false) (hpack : op ≠ .pack)
    {data : List UInt8} {s : Step} {p : Piece} (hp : p ∈ s.pieces) (h : p.Is op data) :
    p ∈ s.calls := by
  have hnot : p.opcode.isPush ≠ true := fun his => Piece.not_is_of_isPush hpush his h
  cases s with
  | emit op' =>
    rw [List.mem_singleton.mp hp] at h
    cases h.2
  | pushBytes data | pushText text =>
    rw [List.mem_singleton.mp hp] at hnot
    exact absurd (isPush_dataPiece _) hnot
  | pushInt n =>
    rw [List.mem_singleton.mp hp] at hnot
    exact absurd (isPush_intPiece n) hnot
  | sysCall name | appCall contract => exact hp
  | invoke contract method args =>
    rcases List.mem_append.mp hp with hp | hp
    · exact absurd h (not_is_preparation hpush hpack method args p hp)
    · exact hp
  | deploy bytecode name =>
    rcases List.mem_append.mp hp with hp | hp
    · exact absurd (isPush_description name p hp) hnot
    · rcases List.mem_cons.mp hp with rfl | hp
      · exact absurd (isPush_dataPiece bytecode) hnot
      · exact hp

/-- The byte strings that a step pushes. -/
def Step.pushed : Step → List (List UInt8)
  | .emit _ | .sysCall _ | .appCall _ => []
  | .pushBytes data => [data]
  | .pushText text => [Text.Utf8.encode text]
  | .pushInt n => [Build.signedDigits n]
  | .invoke _ method args =>
    args ++ [Build.signedDigits args.length, Text.Utf8.encode method]
  | .deploy bytecode name =>
    [Text.Utf8.encode "", Text.Utf8.encode "", Text.Utf8.encode "", Text.Utf8.encode "1.0",
      Text.Utf8.encode name, Build.signedDigits 1, [0x05], [0x07, 0x10], bytecode]

/-- Whether a step can be written so that it is read as what it stands for: what it pushes is
shorter than `2 ^ 32` bytes, the service it calls has a name of at most 255 bytes, and the opcode it
emits takes no operand. -/
def Step.Fits (s : Step) : Prop :=
  (∀ data ∈ s.pushed, data.length < 2 ^ 32) ∧
    match s with
    | .emit op => op.layout = .absent
    | .sysCall name => (Text.Utf8.encode name).length ≤ 255
    | _ => True

/-- A step writes the bytes of its pieces. -/
theorem written_pieces (s : Step) : written s.pieces = s.bytes := by
  have hshow (ps : List Piece) : written ps = ps.flatMap Piece.bytes := rfl
  have hcall (contract : ScriptHash) :
      Piece.bytes ⟨.appCall, some contract.bytes⟩ = Build.appCall contract := rfl
  have hservice (name : String) :
      Piece.bytes ⟨.sysCall, some (Text.Utf8.encode name)⟩ = Build.sysCall name := rfl
  have hemit (op : Opcode) : Piece.bytes ⟨op, none⟩ = Build.emit op := by
    unfold Piece.bytes OperandLayout.encode Build.emit
    cases op.layout <;> rfl
  have htext (text : String) : (textPiece text).bytes = Build.pushText text := bytes_dataPiece _
  rw [hshow]
  cases s with
  | invoke contract method args =>
    have hargs : (args.reverse.map dataPiece).flatMap Piece.bytes
        = args.reverse.flatMap Build.pushBytes := by
      rw [List.flatMap_map]
      exact List.flatMap_congr fun arg _ => bytes_dataPiece arg
    rw [Step.pieces, preparation, List.flatMap_append, List.flatMap_append, hargs]
    simp [Step.bytes, hemit, hcall, htext, bytes_intPiece, Build.invoke]
  | _ =>
    simp [Step.pieces, description, Step.bytes, hemit, hcall, hservice, htext, bytes_dataPiece,
      bytes_intPiece, Build.deploy]

/-- A script is the bytes of the pieces of its steps. -/
theorem assemble_eq (steps : List Step) : assemble steps = written (steps.flatMap Step.pieces) := by
  unfold assemble
  induction steps with
  | nil => rfl
  | cons s steps ih =>
    rw [List.flatMap_cons, List.flatMap_cons, written_append, written_pieces, ih]

/-- The pieces of a step that fits have operands that fit. -/
theorem fits_pieces {s : Step} (h : s.Fits) : ∀ p ∈ s.pieces, p.Fits := by
  obtain ⟨hpushed, hstep⟩ := h
  have hcall (contract : ScriptHash) : Piece.Fits ⟨.appCall, some contract.bytes⟩ :=
    ⟨contract.bytes, rfl, contract.length_bytes⟩
  have hservice {name : String} (hname : (Text.Utf8.encode name).length ≤ 255) :
      Piece.Fits ⟨.sysCall, some (Text.Utf8.encode name)⟩ :=
    ⟨_, rfl, Nat.lt_succ_of_le hname⟩
  cases s with
  | emit op =>
    intro p hp
    rw [List.mem_singleton.mp hp]
    unfold Piece.Fits
    rw [hstep]
    rfl
  | pushBytes data | pushText text =>
    intro p hp
    rw [List.mem_singleton.mp hp]
    exact fits_dataPiece (hpushed _ (List.mem_singleton.mpr rfl))
  | pushInt n =>
    intro p hp
    rw [List.mem_singleton.mp hp]
    exact fits_intPiece (hpushed _ (List.mem_singleton.mpr rfl))
  | sysCall name =>
    intro p hp
    rw [List.mem_singleton.mp hp]
    exact hservice hstep
  | appCall contract =>
    intro p hp
    rw [List.mem_singleton.mp hp]
    exact hcall contract
  | invoke contract method args =>
    simp only [Step.pushed, List.forall_mem_append, List.forall_mem_cons] at hpushed
    obtain ⟨hargs, hcount, hmethod, _⟩ := hpushed
    simp only [Step.pieces, preparation, List.forall_mem_append, List.forall_mem_cons,
      List.forall_mem_map]
    refine ⟨⟨?_, fits_intPiece hcount, rfl, fits_dataPiece hmethod, by simp⟩, hcall contract,
      by simp⟩
    intro arg harg
    exact fits_dataPiece (hargs arg (List.mem_reverse.mp harg))
  | deploy bytecode name =>
    simp only [Step.pushed, List.forall_mem_cons] at hpushed
    obtain ⟨hempty, _, _, hversion, hname, hflag, hresult, hparameters, hbytecode, _⟩ := hpushed
    simp only [Step.pieces, description, List.forall_mem_append, List.forall_mem_cons]
    exact ⟨⟨fits_dataPiece hempty, fits_dataPiece hempty, fits_dataPiece hempty,
      fits_dataPiece hversion, fits_dataPiece hname, fits_intPiece hflag, fits_dataPiece hresult,
      fits_dataPiece hparameters, by simp⟩, fits_dataPiece hbytecode, hservice (by decide), by simp⟩

/-- The disassembly of an assembled script is the pieces of its steps, at their places. -/
theorem disassemble_assemble {steps : List Step} (h : ∀ s ∈ steps, s.Fits) :
    disassemble (assemble steps) = .ok (place 0 (steps.flatMap Step.pieces)) := by
  rw [assemble_eq]
  refine disassemble_written ?_
  intro p hp
  obtain ⟨s, hs, hps⟩ := List.mem_flatMap.mp hp
  exact fits_pieces (h s hs) p hps

end Registrar.Script
