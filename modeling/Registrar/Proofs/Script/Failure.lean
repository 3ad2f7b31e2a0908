import Mathlib
import Registrar.Proofs.Script.Composition
import Registrar.Proofs.Script.LookUp

/-!
# Why a script does not disassemble

A walk fails at one place: all before it is read, and what stands there is either a byte that is no
opcode or an opcode whose operand the script is too short for. The failure tells just that. More bytes
behind the script do not mend a byte that is no opcode; they mend a missing operand only when they are
as many as are missing.
-/

namespace Registrar.Script

/-! ## Names of opcodes -/

namespace Opcode

theorem mem_all (op : Opcode) : op ∈ all := by
  unfold all
  refine List.mem_filterMap.mpr ⟨op.byte.toNat, List.mem_range.mpr op.byte.toNat_lt, ?_⟩
  rw [UInt8.ofNat_toNat, ofByte?_byte]

/-- The bytes of a name, as one number. -/
def nameNumber (name : String) : Nat :=
  name.toByteArray.data.toList.foldl (fun n b => n * 256 + b.toNat) 0

/-- No two opcodes have one name. -/
theorem mnemonic_injective : Function.Injective mnemonic := by
  -- two numbers are compared in one step, two texts byte by byte
  have hnumbers : (all.map fun op => nameNumber op.mnemonic).Nodup := by decide +kernel
  intro op other h
  exact List.inj_on_of_nodup_map hnumbers op.mem_all other.mem_all (congrArg nameNumber h)

end Opcode

/-! ## Operands that are missing -/

/-- More is asked for than there is. -/
theorem split_eq_error_iff {n : Nat} {bytes : List UInt8} {e : Shortage} :
    split n bytes = .error e ↔ bytes.length < n ∧ e = ⟨n, bytes.length⟩ := by
  unfold split
  simp only [List.length_take]
  split_ifs with hlength
  · exact iff_of_false (fun h => nomatch h) fun h => by omega
  · rw [Except.error.injEq, eq_comm]
    exact (and_iff_right (by omega)).symm

namespace OperandLayout

/-- Whether the operand of a layout that is read from `bytes` asks for `needed` bytes when `rest` is
left of them: for all its bytes, if their number is fixed; else for the bytes of its length, and behind
these for as many as the length spells. -/
inductive Asks : OperandLayout → List UInt8 → Nat → List UInt8 → Prop
  | data (size : Nat) (bytes : List UInt8) : Asks (.fixed size) bytes size bytes
  | length (width : Nat) (bytes : List UInt8) : Asks (.counted width) bytes width bytes
  | counted (count rest : List UInt8) :
    Asks (.counted count.length) (count ++ rest) (Radix.ofLittleEndian count) rest

/-- What is asked for does not depend on what follows. -/
theorem Asks.append {layout : OperandLayout} {bytes rest : List UInt8} {needed : Nat}
    (h : layout.Asks bytes needed rest) (more : List UInt8) :
    layout.Asks (bytes ++ more) needed (rest ++ more) := by
  cases h with
  | data => exact .data _ _
  | length => exact .length _ _
  | counted count =>
    rw [List.append_assoc]
    exact .counted _ _

/-- An operand is missing just if more is asked for than is left. -/
theorem read_eq_error_iff {layout : OperandLayout} {bytes : List UInt8} {e : Shortage} :
    layout.read bytes = .error e ↔
      ∃ rest, layout.Asks bytes e.needed rest ∧ e.available = rest.length
        ∧ rest.length < e.needed := by
  constructor
  · intro h
    cases layout with
    | absent => cases h
    | fixed size =>
      simp only [read] at h
      split at h
      · next hdata =>
        cases h
        obtain ⟨hshort, rfl⟩ := split_eq_error_iff.mp hdata
        exact ⟨bytes, .data size bytes, rfl, hshort⟩
      · cases h
    | counted width =>
      simp only [read] at h
      split at h
      · next hcount =>
        cases h
        obtain ⟨hshort, rfl⟩ := split_eq_error_iff.mp hcount
        exact ⟨bytes, .length width bytes, rfl, hshort⟩
      · next count rest hcount =>
        split at h
        · next hdata =>
          cases h
          obtain ⟨hshort, rfl⟩ := split_eq_error_iff.mp hdata
          rw [← length_of_split hcount, ← append_of_split hcount]
          exact ⟨rest, .counted count rest, rfl, hshort⟩
        · cases h
  · obtain ⟨needed, available⟩ := e
    dsimp only
    rintro ⟨rest, hasks, rfl, hshort⟩
    have hsplit : split needed rest = .error ⟨needed, rest.length⟩ :=
      split_eq_error_iff.mpr ⟨hshort, rfl⟩
    cases hasks with
    | data => simp only [read, hsplit]
    | length => simp only [read, hsplit]
    | counted count => simp only [read, split_append rfl, hsplit]

/-- Fewer bytes than are missing do not mend a missing operand. -/
theorem read_append_of_error {layout : OperandLayout} {bytes : List UInt8} {e : Shortage}
    (h : layout.read bytes = .error e) {more : List UInt8} (hmore : e.available + more.length < e.needed) :
    layout.read (bytes ++ more) = .error ⟨e.needed, e.available + more.length⟩ := by
  obtain ⟨rest, hasks, havailable, -⟩ := read_eq_error_iff.mp h
  refine read_eq_error_iff.mpr ⟨rest ++ more, hasks.append more, ?_, ?_⟩
  · rw [List.length_append, ← havailable]
  · rwa [List.length_append, ← havailable]

end OperandLayout

/-! ## The place of a failure -/

/-- Whether the walk fails, and how, when it comes to a byte at a place and `rest` stands behind it. -/
inductive FailsAt (place : Nat) (b : UInt8) (rest : List UInt8) : DisassemblyError → Prop
  | unknown (hop : Opcode.ofByte? b = none) : FailsAt place b rest (.unknownOpcode b place)
  | truncated {op : Opcode} {e : Shortage} (hop : Opcode.ofByte? b = some op)
      (hread : op.layout.read rest = .error e) :
    FailsAt place b rest (.truncatedOperand op place e.needed e.available)

/-- A walk that fails at its first byte. -/
theorem disassembleFrom_of_failsAt {offset : Nat} {b : UInt8} {rest : List UInt8}
    {e : DisassemblyError} (h : FailsAt offset b rest e) :
    disassembleFrom offset (b :: rest) = .error e := by
  cases h with
  | unknown hop => exact disassembleFrom_unknown hop offset rest
  | truncated hop hread => exact disassembleFrom_truncated hop hread offset

/-- A walk fails just if it comes to a byte where it fails, with all before it read. -/
theorem disassembleFrom_eq_error_iff {offset : Nat} {bytes : List UInt8} {e : DisassemblyError} :
    disassembleFrom offset bytes = .error e ↔
      ∃ front b rest, bytes = front ++ b :: rest
        ∧ (∃ code, disassembleFrom offset front = .ok code)
        ∧ FailsAt (offset + front.length) b rest e := by
  constructor
  · intro h
    have hnil (offset : Nat) : ∃ code, disassembleFrom offset [] = .ok code := by
      rw [disassembleFrom]
      exact ⟨[], rfl⟩
    fun_induction disassembleFrom offset bytes with
    | case1 => cases h
    | case2 offset b bytes hop =>
      cases h
      exact ⟨[], b, bytes, rfl, hnil offset, .unknown hop⟩
    | case3 offset b bytes op hop shortage hread =>
      cases h
      exact ⟨[], b, bytes, rfl, hnil offset, .truncated hop hread⟩
    | case4 offset b bytes op hop operand rest hread i fault htail ih =>
      cases h
      obtain ⟨front, b', rest', rfl, ⟨code, hcode⟩, hfails⟩ := ih htail
      obtain ⟨hmatches, rfl⟩ := OperandLayout.encode_of_read hread
      refine ⟨i.encode ++ front, b', rest', ?_, ⟨i :: code, ?_⟩, ?_⟩
      · show b :: (op.layout.encode operand ++ (front ++ b' :: rest'))
          = (op.byte :: op.layout.encode operand ++ front) ++ b' :: rest'
        rw [Opcode.byte_of_ofByte? hop]
        simp
      · rw [disassembleFrom_encode_append (i := i) rfl hmatches, hcode]
        rfl
      · rwa [List.length_append, ← Nat.add_assoc]
    | case5 => cases h
  · rintro ⟨front, b, rest, rfl, ⟨code, hcode⟩, hfails⟩
    rw [disassembleFrom_append hcode, disassembleFrom_of_failsAt hfails]
    rfl

/-- A script does not disassemble just if it has a part in front that does, and the walk fails right
behind this part. -/
theorem disassemble_eq_error_iff {script : List UInt8} {e : DisassemblyError} :
    disassemble script = .error e ↔
      ∃ front b rest, script = front ++ b :: rest ∧ (∃ code, disassemble front = .ok code)
        ∧ FailsAt front.length b rest e := by
  unfold disassemble
  rw [disassembleFrom_eq_error_iff]
  simp only [Nat.zero_add]

/-- Where a script fails, it fails with more bytes behind it, if the walk does at that place. -/
theorem disassemble_append_of_failsAt {front rest more : List UInt8} {b : UInt8}
    {e : DisassemblyError} (hfront : ∃ code, disassemble front = .ok code)
    (hfails : FailsAt front.length b (rest ++ more) e) :
    disassemble (front ++ b :: rest ++ more) = .error e := by
  rw [List.append_assoc, List.cons_append]
  exact disassemble_eq_error_iff.mpr ⟨front, b, rest ++ more, rfl, hfront, hfails⟩

/-- **What a failed disassembly tells.** The disassembly of a script comes to an end and looks up
nothing beyond the script. If it fails, then all before the place that is told disassembles. A byte
that is told stands at that place and is no opcode's, and the same is told whatever follows the script.
An opcode whose name is told stands at that place; what is told as needed is what is asked for there,
and what is told as available is what is left, which is less; and with more bytes behind the script
that are fewer than are missing the same is told, with so many more available. -/
theorem disassemble_error_exact (script : List UInt8) :
    fetchCode script (script.length + 1) 0 = some (disassemble script) ∧
    (∀ b offset, disassemble script = .error (.unknownOpcode b offset) →
      (∃ code, disassemble (script.take offset) = .ok code) ∧
      script[offset]? = some b ∧ (∀ op : Opcode, op.byte ≠ b) ∧
      ∀ more, disassemble (script ++ more) = .error (.unknownOpcode b offset)) ∧
    (∀ op offset needed available,
      disassemble script = .error (.truncatedOperand op offset needed available) →
      (∃ code, disassemble (script.take offset) = .ok code) ∧
      (∀ named : Opcode, named.mnemonic = op.mnemonic → script[offset]? = some named.byte) ∧
      (∃ rest, op.layout.Asks (script.drop (offset + 1)) needed rest ∧ available = rest.length
        ∧ available < needed) ∧
      ∀ more : List UInt8, more.length < needed - available →
        disassemble (script ++ more)
          = .error (.truncatedOperand op offset needed (available + more.length))) := by
  refine ⟨fetchCode_eq script, ?_, ?_⟩
  · intro b offset h
    obtain ⟨front, b, rest, rfl, hfront, hfails⟩ := disassemble_eq_error_iff.mp h
    obtain ⟨hop⟩ := hfails
    rw [List.take_left]
    refine ⟨hfront, by simp, ?_, ?_⟩
    · intro op hbyte
      rw [← hbyte, Opcode.ofByte?_byte] at hop
      cases hop
    · intro more
      exact disassemble_append_of_failsAt hfront (.unknown hop)
  · intro op offset needed available h
    obtain ⟨front, b, rest, rfl, hfront, hfails⟩ := disassemble_eq_error_iff.mp h
    cases hfails with
    | @truncated _ e hop hread =>
      have hbehind : (front ++ b :: rest).drop (front.length + 1) = rest := by simp
      rw [List.take_left, hbehind]
      refine ⟨hfront, ?_, ?_, ?_⟩
      · intro named hname
        rw [Opcode.mnemonic_injective hname, Opcode.byte_of_ofByte? hop]
        simp
      · obtain ⟨left, hasks, havailable, hshort⟩ := OperandLayout.read_eq_error_iff.mp hread
        exact ⟨left, hasks, havailable, by omega⟩
      · intro more hmore
        have hroom : e.available + more.length < e.needed := by omega
        have hmissing := OperandLayout.read_append_of_error hread hroom
        exact disassemble_append_of_failsAt hfront (.truncated hop hmissing)

/-- A script that ends in an unassigned byte, and one whose last push has two of its five bytes. -/
theorem disassemble_error_exact_short :
    disassemble [0x51, 0xFF] = .error (.unknownOpcode 0xFF 1) ∧
    disassemble ([0x51, 0xFF] ++ [0x61, 0x61]) = .error (.unknownOpcode 0xFF 1) ∧
    disassemble [0x51, 0x4C, 0x05, 0xAA, 0xBB] = .error (.truncatedOperand .pushData1 1 5 2) ∧
    disassemble ([0x51, 0x4C, 0x05, 0xAA, 0xBB] ++ [0xCC, 0xDD])
      = .error (.truncatedOperand .pushData1 1 5 4) := by
  have hunknown : disassemble [0x51, 0xFF] = .error (.unknownOpcode 0xFF 1) := by cbv
  have htruncated : disassemble [0x51, 0x4C, 0x05, 0xAA, 0xBB]
      = .error (.truncatedOperand .pushData1 1 5 2) := by cbv
  obtain ⟨-, -, -, hsame⟩ := (disassemble_error_exact [0x51, 0xFF]).2.1 _ _ hunknown
  obtain ⟨-, -, -, hmore⟩ :=
    (disassemble_error_exact [0x51, 0x4C, 0x05, 0xAA, 0xBB]).2.2 _ _ _ _ htruncated
  exact ⟨hunknown, hsame [0x61, 0x61], htruncated, hmore [0xCC, 0xDD] (by decide)⟩

end Registrar.Script
