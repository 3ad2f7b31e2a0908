import Mathlib
import Registrar.Proofs.Script.Assembly
import Registrar.Proofs.Script.Grammar
import Registrar.Proofs.Script.Integer

/-!
# Assembled scripts are read back

A step of a builder is one instruction, or it is made of smaller steps that are. The disassembly of
an assembled script is, instruction for instruction, what the steps stand for, each where the bytes
of the steps before it end. There is one thing that a builder takes and that is not read back: a
service name of more than 255 bytes, whose length does not fit in the one byte that is written for
it.
-/

namespace Registrar.Script

/-! ## Steps of one instruction -/

/-- The steps of one instruction each that a step is made of. -/
def Step.expansion : Step → List Step
  | .invoke contract method args =>
    args.reverse.map .pushBytes
      ++ [.pushInt args.length, .emit .pack, .pushText method, .appCall contract]
  | .deploy bytecode name =>
    [.pushText "", .pushText "", .pushText "", .pushText "1.0", .pushText name, .pushInt 1,
      .pushBytes [0x05], .pushBytes [0x07, 0x10], .pushBytes bytecode, .sysCall createService]
  | s => [s]

/-- Whether an instruction is the one that a step stands for. A push is told by the value that it
leaves on the stack, and the value of a number by the number that it spells. -/
def Step.StandsFor : Step → Instruction → Prop
  | .emit op, i => i.opcode = op ∧ i.operand = none
  | .pushBytes data, i => i.pushValue? = some data
  | .pushText text, i => i.pushValue? = some (Text.Utf8.encode text)
  | .pushInt n, i => ∃ value, i.pushValue? = some value ∧ Radix.ofLittleEndian value = n
  | .sysCall name, i => i.opcode = .sysCall ∧ i.operand = some (Text.Utf8.encode name)
  | .appCall contract, i => i.opcode = .appCall ∧ i.operand = some contract.bytes
  | .invoke _ _ _, _ | .deploy _ _, _ => False

/-- Whether instructions are, one for one, those that steps stand for, the first of them at `offset`
and each other where the bytes of the steps before it end. -/
def StandFor (offset : Nat) : List Step → List Instruction → Prop
  | [], [] => True
  | s :: steps, i :: code =>
    s.StandsFor i ∧ i.offset = offset ∧ StandFor (offset + s.bytes.length) steps code
  | _, _ => False

/-- What a step is made of is not made of smaller steps. -/
theorem Step.expansion_of_mem {s t : Step} (h : t ∈ s.expansion) : t.expansion = [t] := by
  cases s with
  | invoke contract method args =>
    simp only [Step.expansion, List.mem_append, List.mem_map, List.mem_cons, List.not_mem_nil,
      or_false] at h
    rcases h with ⟨arg, _, rfl⟩ | rfl | rfl | rfl | rfl <;> rfl
  | deploy bytecode name =>
    simp only [Step.expansion, List.mem_cons, List.not_mem_nil, or_false] at h
    rcases h with rfl | rfl | rfl | rfl | rfl | rfl | rfl | rfl | rfl | rfl <;> rfl
  | _ =>
    rw [List.mem_singleton.mp h]
    rfl

/-- A step has the pieces of the steps that it is made of. -/
theorem Step.flatMap_pieces_expansion (s : Step) : s.expansion.flatMap Step.pieces = s.pieces := by
  cases s with
  | invoke contract method args =>
    have hargs : (args.reverse.map Step.pushBytes).flatMap Step.pieces
        = args.reverse.map dataPiece := by
      rw [List.flatMap_map]
      exact List.map_eq_flatMap.symm
    rw [Step.expansion, List.flatMap_append, hargs]
    simp [Step.pieces, preparation]
  | deploy bytecode name => rfl
  | _ => exact List.flatMap_singleton _ _

/-- The value of a pushed number is its signed form. -/
theorem pushValue?_intPiece (n offset : Nat) :
    ((intPiece n).instruction offset).pushValue? = some (Build.signedDigits n) := by
  unfold intPiece Opcode.ofSmallInt?
  split_ifs with h0 h16
  · rw [h0, Build.signedDigits_zero]
    rfl
  · rw [Build.signedDigits_of_lt_128 h0 (by omega)]
    show some [UInt8.ofNat (n - 1 + 1)] = some [UInt8.ofNat n]
    rw [Nat.sub_add_cancel (by omega)]
  · exact pushValue?_dataPiece _ _

/-- A step that is not made of smaller ones has one piece, and it is the instruction that the step
stands for, wherever it is. -/
theorem Step.exists_piece {s : Step} (h : s.expansion = [s]) :
    ∃ p : Piece, s.pieces = [p] ∧ ∀ offset, s.StandsFor (p.instruction offset) := by
  cases s with
  | emit op => exact ⟨_, rfl, fun _ => ⟨rfl, rfl⟩⟩
  | pushBytes data => exact ⟨_, rfl, fun offset => pushValue?_dataPiece data offset⟩
  | pushText text => exact ⟨_, rfl, fun offset => pushValue?_dataPiece _ offset⟩
  | pushInt n =>
    refine ⟨_, rfl, fun offset => ⟨_, pushValue?_intPiece n offset, ?_⟩⟩
    exact Build.ofLittleEndian_signedDigits n
  | sysCall name => exact ⟨_, rfl, fun _ => ⟨rfl, rfl⟩⟩
  | appCall contract => exact ⟨_, rfl, fun _ => ⟨rfl, rfl⟩⟩
  | invoke contract method args =>
    have hlength := congrArg List.length h
    simp [Step.expansion] at hlength
  | deploy bytecode name =>
    have hlength := congrArg List.length h
    simp [Step.expansion] at hlength

/-- The pieces of such steps, at their places, are the instructions that the steps stand for. -/
theorem standFor_place {steps : List Step} (h : ∀ s ∈ steps, s.expansion = [s]) (offset : Nat) :
    StandFor offset steps (place offset (steps.flatMap Step.pieces)) := by
  induction steps generalizing offset with
  | nil => trivial
  | cons s steps ih =>
    obtain ⟨p, hpiece, hstands⟩ := Step.exists_piece (h s List.mem_cons_self)
    have hbytes : p.bytes = s.bytes := by
      rw [← written_pieces, hpiece]
      exact (List.flatMap_singleton _ _).symm
    rw [List.flatMap_cons, hpiece]
    refine ⟨hstands offset, rfl, ?_⟩
    rw [hbytes]
    exact ih (fun t ht => h t (List.mem_cons_of_mem _ ht)) _

/-- Each of the steps has its instruction among those that the steps stand for. -/
theorem StandFor.exists_mem {offset : Nat} {steps : List Step} {code : List Instruction}
    (h : StandFor offset steps code) {s : Step} (hs : s ∈ steps) : ∃ i ∈ code, s.StandsFor i := by
  induction steps generalizing offset code with
  | nil => cases hs
  | cons t steps ih =>
    cases code with
    | nil => exact h.elim
    | cons i code =>
      obtain ⟨hfirst, _, hrest⟩ := h
      rcases List.mem_cons.mp hs with rfl | hs
      · exact ⟨i, List.mem_cons_self, hfirst⟩
      · obtain ⟨j, hj, hstands⟩ := ih hrest hs
        exact ⟨j, List.mem_cons_of_mem _ hj, hstands⟩

/-! ## What a builder can be asked for -/

/-- Whether a builder can be asked for a step: an opcode that is emitted alone takes no operand,
data is shorter than `2 ^ 32` bytes, and numbers and lists are of 64 bits. Nothing is asked of the
names of services. -/
def Step.Buildable : Step → Prop
  | .emit op => op.layout = .absent
  | .pushBytes data => data.length < 2 ^ 32
  | .pushText text => (Text.Utf8.encode text).length < 2 ^ 32
  | .pushInt n => n < 2 ^ 64
  | .sysCall _ | .appCall _ => True
  | .invoke _ method args =>
    (∀ arg ∈ args, arg.length < 2 ^ 32) ∧ args.length < 2 ^ 64
      ∧ (Text.Utf8.encode method).length < 2 ^ 32
  | .deploy bytecode name => bytecode.length < 2 ^ 32 ∧ (Text.Utf8.encode name).length < 2 ^ 32

instance : DecidablePred Step.Buildable
  | .emit op => inferInstanceAs (Decidable (op.layout = .absent))
  | .pushBytes data => inferInstanceAs (Decidable (data.length < 2 ^ 32))
  | .pushText text => inferInstanceAs (Decidable ((Text.Utf8.encode text).length < 2 ^ 32))
  | .pushInt n => inferInstanceAs (Decidable (n < 2 ^ 64))
  | .sysCall _ | .appCall _ => instDecidableTrue
  | .invoke _ method args =>
    inferInstanceAs (Decidable ((∀ arg ∈ args, arg.length < 2 ^ 32) ∧ args.length < 2 ^ 64
      ∧ (Text.Utf8.encode method).length < 2 ^ 32))
  | .deploy bytecode name =>
    inferInstanceAs (Decidable (bytecode.length < 2 ^ 32
      ∧ (Text.Utf8.encode name).length < 2 ^ 32))

/-- Whether the name of a service that a step calls is of at most 255 bytes. -/
def Step.NameFits : Step → Prop
  | .sysCall name => (Text.Utf8.encode name).length ≤ 255
  | _ => True

instance : DecidablePred Step.NameFits
  | .sysCall name => inferInstanceAs (Decidable ((Text.Utf8.encode name).length ≤ 255))
  | .emit _ | .pushBytes _ | .pushText _ | .pushInt _ | .appCall _ | .invoke _ _ _ | .deploy _ _ =>
    instDecidableTrue

/-- The signed form of a number of 64 bits has nine bytes at most. -/
theorem length_signedDigits_lt {n : Nat} (h : n < 2 ^ 64) :
    (Build.signedDigits n).length < 2 ^ 32 := by
  have hlength : (Build.signedDigits n).length ≤ 8 + 1 :=
    (Build.length_signedDigits_le_iff n 8).mpr (by omega)
  omega

/-- What a builder can be asked for fits, if names of services do. -/
theorem Step.Buildable.fits {s : Step} (h : s.Buildable) (hname : s.NameFits) : s.Fits := by
  cases s with
  | emit op => exact ⟨List.forall_mem_nil _, h⟩
  | pushBytes data | pushText text => exact ⟨List.forall_mem_singleton.mpr h, trivial⟩
  | pushInt n => exact ⟨List.forall_mem_singleton.mpr (length_signedDigits_lt h), trivial⟩
  | sysCall name => exact ⟨List.forall_mem_nil _, hname⟩
  | appCall contract => exact ⟨List.forall_mem_nil _, trivial⟩
  | invoke contract method args =>
    obtain ⟨hargs, hcount, hmethod⟩ := h
    refine ⟨?_, trivial⟩
    simp only [Step.pushed, List.forall_mem_append, List.forall_mem_cons]
    exact ⟨hargs, length_signedDigits_lt hcount, hmethod, List.forall_mem_nil _⟩
  | deploy bytecode name =>
    obtain ⟨hbytecode, hlabel⟩ := h
    refine ⟨?_, trivial⟩
    simp only [Step.pushed, List.forall_mem_cons]
    exact ⟨by decide, by decide, by decide, by decide, hlabel, length_signedDigits_lt (by decide),
      by decide, by decide, hbytecode, List.forall_mem_nil _⟩

theorem forall_fits {steps : List Step} (h : ∀ s ∈ steps, s.Buildable ∧ s.NameFits) :
    ∀ s ∈ steps, s.Fits := by
  intro s hs
  obtain ⟨hbuildable, hname⟩ := h s hs
  exact hbuildable.fits hname

/-! ## Reading back -/

/-- The instructions of a script that is written from steps that fit are those that the steps stand
for. -/
theorem disassemble_standFor {steps : List Step} (h : ∀ s ∈ steps, s.Fits) :
    ∃ code, disassemble (assemble steps) = .ok code
      ∧ StandFor 0 (steps.flatMap Step.expansion) code := by
  refine ⟨_, disassemble_assemble h, ?_⟩
  have hpieces : steps.flatMap Step.pieces
      = (steps.flatMap Step.expansion).flatMap Step.pieces := by
    rw [List.flatMap_assoc]
    exact List.flatMap_congr fun s _ => (Step.flatMap_pieces_expansion s).symm
  rw [hpieces]
  apply standFor_place
  intro t ht
  obtain ⟨s, _, hts⟩ := List.mem_flatMap.mp ht
  exact Step.expansion_of_mem hts

/-- A name that is read back is one whose length fits in a byte, for what is read is well formed. -/
theorem length_le_of_standFor {script : List UInt8} {steps : List Step} {code : List Instruction}
    (hcode : disassemble script = .ok code) (h : StandFor 0 steps code) {name : String}
    (hname : .sysCall name ∈ steps) : (Text.Utf8.encode name).length ≤ 255 := by
  obtain ⟨i, hi, hop, hoperand⟩ := h.exists_mem hname
  have hmatches := matches_of_disassemble hcode hi
  rw [hop, hoperand] at hmatches
  obtain ⟨data, hdata, hlength⟩ := hmatches
  rw [Option.some.inj hdata]
  exact Nat.le_of_lt_succ hlength

/-- Whatever steps a script is assembled from, it is read back as what they stand for if and only if
each service that is called has a name of at most 255 bytes. -/
theorem read_back_iff {steps : List Step} (h : ∀ s ∈ steps, s.Buildable) :
    (∃ code, disassemble (assemble steps) = .ok code
        ∧ StandFor 0 (steps.flatMap Step.expansion) code)
      ↔ ∀ name, .sysCall name ∈ steps → (Text.Utf8.encode name).length ≤ 255 := by
  constructor
  · rintro ⟨code, hcode, hstand⟩ name hname
    apply length_le_of_standFor hcode hstand
    exact List.mem_flatMap.mpr ⟨.sysCall name, hname, List.mem_singleton.mpr rfl⟩
  · intro hnames
    apply disassemble_standFor
    intro s hs
    apply (h s hs).fits
    cases s with
    | sysCall name => exact hnames name hs
    | _ => trivial

/-- Steps that are read back: a number, a service and a call. -/
def shortNames : List Step :=
  [.pushInt 300, .sysCall createService, .invoke .zero "go" [[1]]]

/-- A service whose name is one byte too long. -/
def longName : String :=
  String.ofList (List.replicate 256 'a')

/-- The steps are read back, and no longer when the service of the long name is called after
them. -/
theorem read_back_iff_long_name :
    (∀ s ∈ shortNames ++ [Step.sysCall longName], s.Buildable) ∧
    (∃ code, disassemble (assemble shortNames) = .ok code
      ∧ StandFor 0 (shortNames.flatMap Step.expansion) code) ∧
    ¬ ∃ code, disassemble (assemble (shortNames ++ [Step.sysCall longName])) = .ok code
      ∧ StandFor 0 ((shortNames ++ [Step.sysCall longName]).flatMap Step.expansion) code := by
  have hbuildable : ∀ s ∈ shortNames ++ [Step.sysCall longName], s.Buildable := by decide
  refine ⟨hbuildable, ?_, ?_⟩
  · apply (read_back_iff fun s hs => hbuildable s (List.mem_append_left _ hs)).mpr
    intro name hname
    simp only [shortNames, List.mem_cons, reduceCtorEq, Step.sysCall.injEq, List.not_mem_nil,
      or_false, false_or] at hname
    rw [hname]
    decide
  · intro h
    have hshort := (read_back_iff hbuildable).mp h longName
      (List.mem_append_right _ (List.mem_singleton.mpr rfl))
    revert hshort
    decide +kernel

end Registrar.Script
