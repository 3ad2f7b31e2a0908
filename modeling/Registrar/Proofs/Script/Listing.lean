import Mathlib
import Registrar.Proofs.Script.Failure
import Registrar.Proofs.Text.Hex.Grammar
import Registrar.Proofs.Text.Utf8.WellFormed

/-!
# Listings can be read back

The line of an instruction begins with its offset, which is told by the lines before it; then comes the
name of the opcode, which is one word and no other opcode's; and what stands behind the name is the
operand, in digits or as text. So where the names of services are text of one line, a listing has a line
for each instruction, and no two scripts have one listing. The listing of a script that does not
disassemble begins as no line does.
-/

namespace Registrar.Script

open Text.Hex (IsDigit)

/-! ## One line -/

/-- The name of an opcode is one word. -/
theorem Opcode.ne_of_mem_mnemonic {op : Opcode} {c : Char} (hc : c ∈ op.mnemonic.toList) :
    c ≠ ' ' ∧ c ≠ '\n' := by
  -- the table is looked through in bytes, which is faster than in characters
  have htable : ∀ op ∈ all, 0x20 ∉ Text.Utf8.encode op.mnemonic ∧
      0x0A ∉ Text.Utf8.encode op.mnemonic := by decide +kernel
  obtain ⟨hblank, hfeed⟩ := htable op op.mem_all
  have hbytes {b : UInt8} (hb : b ∈ String.utf8EncodeChar c) :
      b ∈ Text.Utf8.encode op.mnemonic := by
    rw [Text.Utf8.encode_eq]
    exact List.mem_flatMap.mpr ⟨c, hc, hb⟩
  constructor
  · rintro rfl
    exact hblank (hbytes (by decide))
  · rintro rfl
    exact hfeed (hbytes (by decide))

/-- The layout tells whether there is an operand. -/
theorem OperandLayout.Matches.isSome_eq {layout : OperandLayout} {a b : Option (List UInt8)}
    (ha : layout.Matches a) (hb : layout.Matches b) : a.isSome = b.isSome := by
  cases layout with
  | absent => rw [show a = none from ha, show b = none from hb]
  | fixed size | counted width =>
    obtain ⟨data, rfl, -⟩ := ha
    obtain ⟨other, rfl, -⟩ := hb
    rfl

namespace Instruction

/-- What a line shows of the operand, with the blank before it. -/
def shown (i : Instruction) : List Char :=
  match i.operand with
  | none => []
  | some data =>
    if i.opcode = .sysCall then ' ' :: (Text.Utf8.decodeLossy data).toList
    else if data.isEmpty then []
    else ' ' :: Text.Hex.digits data

theorem toList_line (i : Instruction) :
    i.line.toList = (Text.Hex.number 4 i.offset).toList
      ++ ':' :: ' ' :: (i.opcode.mnemonic.toList ++ i.shown) := by
  unfold line shown
  cases i.operand with
  | none => simp
  | some data =>
    dsimp only
    split_ifs <;> simp [Text.Hex.encode]

/-- Whether the name of a service that is called is text of one line. -/
def Legible (i : Instruction) : Prop :=
  i.opcode = .sysCall → ∃ name, i.operandText? = some name ∧ '\n' ∉ name.toList

/-- The name of a service is shown as it is. -/
theorem Legible.exists_name {i : Instruction} (h : i.Legible) (hop : i.opcode = .sysCall)
    {data : List UInt8} (hoperand : i.operand = some data) :
    ∃ name, data = Text.Utf8.encode name ∧ Text.Utf8.decodeLossy data = name
      ∧ '\n' ∉ name.toList := by
  obtain ⟨name, htext, hfeed⟩ := h hop
  unfold operandText? at htext
  rw [hoperand, Option.bind_some, Text.Utf8.decode?_eq_some_iff] at htext
  refine ⟨name, htext, ?_, hfeed⟩
  rw [htext, Text.Utf8.decodeLossy_encode]

/-- A line is one line. -/
theorem feed_not_mem_line {i : Instruction} (h : i.Legible) : '\n' ∉ i.line.toList := by
  have hdigit {c : Char} (hc : IsDigit c) : '\n' ≠ c := (hc.ne (by decide)).symm
  have hshown : '\n' ∉ i.shown := by
    unfold shown
    cases hoperand : i.operand with
    | none => exact List.not_mem_nil
    | some data =>
      dsimp only
      split_ifs with hop hempty
      · obtain ⟨name, -, hname, hfeed⟩ := h.exists_name hop hoperand
        rw [hname, List.mem_cons]
        exact not_or.mpr ⟨by decide, hfeed⟩
      · exact List.not_mem_nil
      · rw [List.mem_cons]
        refine not_or.mpr ⟨by decide, ?_⟩
        intro hc
        exact hdigit (Text.Hex.isDigit_of_mem_digits hc) rfl
  rw [toList_line]
  simp only [List.mem_append, List.mem_cons, not_or]
  refine ⟨?_, by decide, by decide, ?_, hshown⟩
  · intro hc
    exact hdigit (Text.Hex.isDigit_of_mem_number hc) rfl
  · intro hc
    exact (Opcode.ne_of_mem_mnemonic hc).2 rfl

/-- What is shown of an operand tells the operand, if the opcode is known. -/
theorem operand_eq_of_shown {i j : Instruction} (hop : i.opcode = j.opcode)
    (hi : i.opcode.layout.Matches i.operand) (hj : j.opcode.layout.Matches j.operand)
    (hli : i.Legible) (hlj : j.Legible) (h : i.shown = j.shown) : i.operand = j.operand := by
  rw [← hop] at hj
  have hboth : i.operand.isSome = j.operand.isSome := hi.isSome_eq hj
  unfold shown at h
  rw [← hop] at h
  cases hdata : i.operand with
  | none =>
    rw [hdata, Option.isSome_none, eq_comm, Option.isSome_eq_false_iff,
      Option.isNone_iff_eq_none] at hboth
    rw [hboth]
  | some data =>
    rw [hdata, Option.isSome_some, eq_comm, Option.isSome_iff_exists] at hboth
    obtain ⟨other, hother⟩ := hboth
    rw [hdata, hother] at h
    rw [hother]
    dsimp only at h
    congr 1
    split_ifs at h with hsys hempty hempty' hempty'
    · obtain ⟨name, hbytes, hname, -⟩ := hli.exists_name hsys hdata
      obtain ⟨name', hbytes', hname', -⟩ := hlj.exists_name (hop ▸ hsys) hother
      rw [hname, hname'] at h
      rw [hbytes, hbytes', String.toList_inj.mp (List.cons.inj h).2]
    · rw [List.isEmpty_iff.mp hempty, List.isEmpty_iff.mp hempty']
    · have hdigits : Text.Hex.encode data = Text.Hex.encode other :=
        congrArg String.ofList (List.cons.inj h).2
      exact Text.Hex.encode_inj.mp hdigits

/-- Behind the name of the opcode a line ends or goes on with a blank. -/
theorem shown_eq (i : Instruction) : i.shown = [] ∨ ∃ rest, i.shown = ' ' :: rest := by
  unfold shown
  cases i.operand with
  | none => exact Or.inl rfl
  | some data =>
    dsimp only
    split_ifs
    · exact Or.inr ⟨_, rfl⟩
    · exact Or.inl rfl
    · exact Or.inr ⟨_, rfl⟩

/-- The name of the opcode is what stands before the first blank. -/
theorem takeWhile_mnemonic (i : Instruction) :
    (i.opcode.mnemonic.toList ++ i.shown).takeWhile (· ≠ ' ') = i.opcode.mnemonic.toList := by
  have hname : ∀ c ∈ i.opcode.mnemonic.toList, decide (c ≠ ' ') = true := by
    intro c hc
    exact decide_eq_true (Opcode.ne_of_mem_mnemonic hc).1
  have hshown : i.shown.takeWhile (· ≠ ' ') = [] := by
    rcases i.shown_eq with h | ⟨rest, h⟩
    · rw [h, List.takeWhile_nil]
    · rw [h, List.takeWhile_cons_of_neg (by decide)]
  rw [List.takeWhile_append_of_pos hname, hshown, List.append_nil]

/-- Instructions that stand at one place and have one line are the same. -/
theorem eq_of_line {i j : Instruction} (hplace : i.offset = j.offset)
    (hi : i.opcode.layout.Matches i.operand) (hj : j.opcode.layout.Matches j.operand)
    (hli : i.Legible) (hlj : j.Legible) (h : i.line.toList = j.line.toList) : i = j := by
  rw [toList_line, toList_line, hplace] at h
  have hbehind : i.opcode.mnemonic.toList ++ i.shown = j.opcode.mnemonic.toList ++ j.shown := by
    simpa using h
  have hname : i.opcode.mnemonic.toList = j.opcode.mnemonic.toList := by
    rw [← i.takeWhile_mnemonic, ← j.takeWhile_mnemonic, hbehind]
  have hop : i.opcode = j.opcode := Opcode.mnemonic_injective (String.toList_inj.mp hname)
  have hshown : i.shown = j.shown := by
    rw [hname] at hbehind
    exact List.append_cancel_left hbehind
  have hoperand : i.operand = j.operand := operand_eq_of_shown hop hi hj hli hlj hshown
  cases i
  cases j
  cases hplace
  cases hop
  cases hoperand
  rfl

end Instruction

/-! ## Whole listings -/

theorem toList_listing {script : List UInt8} {code : List Instruction}
    (h : disassemble script = .ok code) :
    (listing script).toList = code.flatMap fun i => i.line.toList ++ ['\n'] := by
  unfold listing
  rw [h]
  dsimp only
  rw [String.toList_join, List.flatMap_map]
  refine List.flatMap_congr fun i _ => ?_
  rw [String.toList_append]
  rfl

/-- The listing falls into the lines of the instructions. -/
theorem splitOn_listing {script : List UInt8} {code : List Instruction}
    (h : disassemble script = .ok code) (hlegible : ∀ i ∈ code, i.Legible) :
    (listing script).toList.splitOn '\n' = code.map (fun i => i.line.toList) ++ [[]] := by
  rw [toList_listing h]
  clear h
  induction code with
  | nil => rfl
  | cons i code ih =>
    rw [List.forall_mem_cons] at hlegible
    rw [List.flatMap_cons, List.append_assoc, List.singleton_append, List.splitOn_append_cons_self,
      List.splitOn_eq_singleton (Instruction.feed_not_mem_line hlegible.1), ih hlegible.2]
    rfl

/-- Code that follows without gaps from one place is told by its lines. -/
theorem eq_of_lines {offset : Nat} {a b : List Instruction} (ha : IsCodeFrom offset a)
    (hb : IsCodeFrom offset b) (hla : ∀ i ∈ a, i.Legible) (hlb : ∀ i ∈ b, i.Legible)
    (h : a.map (fun i => i.line.toList) = b.map (fun i => i.line.toList)) : a = b := by
  induction a generalizing b offset with
  | nil => exact (List.map_eq_nil_iff.mp h.symm).symm
  | cons i a ih =>
    obtain ⟨j, b', rfl, hline, hrest⟩ := List.map_eq_cons_iff.mp h.symm
    obtain ⟨hplace, hmatches, ha⟩ := ha
    obtain ⟨hplace', hmatches', hb⟩ := hb
    rw [List.forall_mem_cons] at hla hlb
    obtain rfl : i = j := Instruction.eq_of_line (hplace.trans hplace'.symm) hmatches hmatches'
      hla.1 hlb.1 hline.symm
    rw [ih ha hb hla.2 hlb.2 hrest.symm]

/-- A listing begins with a digit, if there is a line at all. -/
theorem head?_listing_of_ok {script : List UInt8} {code : List Instruction}
    (h : disassemble script = .ok code) : (listing script).toList.head? ≠ some '<' := by
  rw [toList_listing h]
  cases code with
  | nil => exact nofun
  | cons i code =>
    obtain ⟨c, cs, hcons⟩ := Text.Hex.exists_number_eq_cons 4 i.offset
    have hdigit : IsDigit c := Text.Hex.isDigit_of_mem_number (hcons ▸ List.mem_cons_self)
    rw [List.flatMap_cons, Instruction.toList_line, hcons]
    intro hhead
    exact hdigit.ne (by decide) (Option.some.inj hhead)

/-- What tells why a script does not disassemble begins with a mark of its own. -/
theorem head?_listing_of_error {script : List UInt8} {e : DisassemblyError}
    (h : disassemble script = .error e) : (listing script).toList.head? = some '<' := by
  unfold listing
  rw [h]
  dsimp only
  rw [String.toList_append, String.toList_append]
  rfl

/-- **A listing determines its script.** Two scripts that disassemble, and whose services have names
that are text of one line, have the same listing just if they are the same. The listing falls at its
line feeds into the lines of the instructions, one for each, and nothing stands behind the last. No
script that does not disassemble has such a listing. -/
theorem listing_determines_script {a b : List UInt8} {codeA codeB : List Instruction}
    (ha : disassemble a = .ok codeA) (hb : disassemble b = .ok codeB)
    (hla : ∀ i ∈ codeA, i.Legible) (hlb : ∀ i ∈ codeB, i.Legible) :
    (listing a = listing b ↔ a = b) ∧
    (listing a).toList.splitOn '\n' = codeA.map (fun i => i.line.toList) ++ [[]] ∧
    ∀ c e, disassemble c = .error e → listing c ≠ listing a := by
  refine ⟨?_, splitOn_listing ha hla, ?_⟩
  · constructor
    · intro h
      have hlines : codeA.map (fun i => i.line.toList) ++ [[]]
          = codeB.map (fun i => i.line.toList) ++ [[]] := by
        rw [← splitOn_listing ha hla, ← splitOn_listing hb hlb, h]
      obtain ⟨hcodeA, rfl⟩ := encode_of_disassembleFrom ha
      obtain ⟨hcodeB, rfl⟩ := encode_of_disassembleFrom hb
      rw [eq_of_lines hcodeA hcodeB hla hlb (List.append_cancel_right hlines)]
    · rintro rfl
      rfl
  · intro c e hc h
    apply head?_listing_of_ok ha
    rw [← h]
    exact head?_listing_of_error hc

/-- Instructions that push a number and call a service of two letters. -/
def greeting (n : Fin 16) : List Instruction :=
  [⟨0, .pushInt n, none⟩, ⟨1, .sysCall, some [0x48, 0x69]⟩]

theorem legible_greeting (n : Fin 16) : ∀ i ∈ greeting n, i.Legible := by
  unfold greeting
  rw [List.forall_mem_cons, List.forall_mem_singleton]
  constructor
  · intro hop
    cases hop
  · intro _
    refine ⟨"Hi", ?_, by decide⟩
    show Text.Utf8.decode? [0x48, 0x69] = some "Hi"
    exact Text.Utf8.decode?_eq_some_iff.mpr (by decide)

/-- The name of an opcode may begin another's: still the listings differ, each has two lines, and none
is that of a byte that is no opcode. -/
theorem listing_determines_script_prefixes :
    disassemble [0x51, 0x68, 0x02, 0x48, 0x69] = .ok (greeting 0) ∧
    disassemble [0x60, 0x68, 0x02, 0x48, 0x69] = .ok (greeting 15) ∧
    listing [0x51, 0x68, 0x02, 0x48, 0x69] ≠ listing [0x60, 0x68, 0x02, 0x48, 0x69] ∧
    ((listing [0x51, 0x68, 0x02, 0x48, 0x69]).toList.splitOn '\n').length = 2 + 1 ∧
    listing [0xFF] ≠ listing [0x51, 0x68, 0x02, 0x48, 0x69] := by
  have hone : disassemble [0x51, 0x68, 0x02, 0x48, 0x69] = .ok (greeting 0) := by cbv
  have hsixteen : disassemble [0x60, 0x68, 0x02, 0x48, 0x69] = .ok (greeting 15) := by cbv
  have hunknown : disassemble [0xFF] = .error (.unknownOpcode 0xFF 0) := by cbv
  obtain ⟨hsame, hlines, herror⟩ :=
    listing_determines_script hone hsixteen (legible_greeting 0) (legible_greeting 15)
  refine ⟨hone, hsixteen, ?_, ?_, herror _ _ hunknown⟩
  · intro h
    exact absurd (hsame.mp h) (by decide)
  · rw [hlines]
    rfl

end Registrar.Script
