import Mathlib
import Registrar.Contract.Identity
import Registrar.Proofs.Script.RoundTrip

/-!
# The contract that a deployment creates

The first creation in a script decides, whatever is pushed before it and whatever follows: data is
never taken for an instruction. A compiled deployment has its bytecode right before the creation, so
the contract that is located is the one that has this bytecode. Empty bytecode is pushed by an
instruction without an operand, and then there is no contract, even if a later deployment has
bytecode.
-/

namespace Registrar.Contract

open Script (Instruction Piece Step dataPiece description place written assemble disassemble)

/-! ## The first creation -/

/-- What is created at `site` when `source` stands right before it. -/
def creationAt (source site : Instruction) : Creation :=
  match source.operand with
  | some bytecode => .created (Identity.ofBytecode bytecode)
  | none => .bare site.offset

/-- Code without a creation is passed over, up to the instruction right before the first one. -/
theorem creationAfter_append {code : List Instruction} (h : ∀ i ∈ code, isCreation i = false)
    {source site : Instruction} (hsource : isCreation source = false)
    (hsite : isCreation site = true) (previous : Instruction) (rest : List Instruction) :
    creationAfter previous (code ++ source :: site :: rest) = creationAt source site := by
  induction code generalizing previous with
  | nil =>
    rw [List.nil_append, creationAfter, hsource, if_neg Bool.false_ne_true, creationAfter,
      if_pos hsite]
    rfl
  | cons i code ih =>
    rw [List.cons_append, creationAfter, h i List.mem_cons_self, if_neg Bool.false_ne_true]
    exact ih (fun j hj => h j (List.mem_cons_of_mem _ hj)) i

/-- The first creation of a script takes its bytecode from the instruction right before it. -/
theorem ofCode_append {code : List Instruction} (h : ∀ i ∈ code, isCreation i = false)
    {source site : Instruction} (hsource : isCreation source = false)
    (hsite : isCreation site = true) (rest : List Instruction) :
    Creation.ofCode (code ++ source :: site :: rest) = creationAt source site := by
  cases code with
  | nil =>
    rw [List.nil_append, Creation.ofCode, creationAfter, if_pos hsite]
    rfl
  | cons i code =>
    exact creationAfter_append (fun j hj => h j (List.mem_cons_of_mem _ hj)) hsource hsite i rest

/-! ## Compiled deployments -/

/-- Whether a piece calls the creating service. -/
def Creates : Piece → Prop :=
  Piece.Is .sysCall (Text.Utf8.encode Script.createService)

theorem not_creates_of_isPush {p : Piece} (h : p.opcode.isPush = true) : ¬ Creates p :=
  Piece.not_is_of_isPush rfl h

theorem isCreation_of_not_creates {p : Piece} (h : ¬ Creates p) (offset : Nat) :
    isCreation (p.instruction offset) = false :=
  Piece.decide_is h

/-- A compiled deployment, after pieces that create nothing, is located by its bytecode, unless this
is empty. -/
theorem ofCode_deploy {ps : List Piece} (h : ∀ p ∈ ps, ¬ Creates p) (bytecode : List UInt8)
    (name : String) (rest : List Piece) :
    Creation.ofCode (place 0 (ps ++ (Step.deploy bytecode name).pieces ++ rest))
      = if bytecode = [] then
          .bare ((written (ps ++ description name)).length + (dataPiece bytecode).bytes.length)
        else .created (Identity.ofBytecode bytecode) := by
  have hpieces : ps ++ (Step.deploy bytecode name).pieces ++ rest
      = (ps ++ description name) ++ dataPiece bytecode
        :: ⟨.sysCall, some (Text.Utf8.encode Script.createService)⟩ :: rest := by
    simp [Step.pieces]
  have hfront : ∀ i ∈ place 0 (ps ++ description name), isCreation i = false := by
    refine Script.forall_mem_place fun p hp => isCreation_of_not_creates ?_
    rcases List.mem_append.mp hp with hp | hp
    · exact h p hp
    · exact not_creates_of_isPush (Script.isPush_description name p hp)
  have hsource (offset : Nat) : isCreation ((dataPiece bytecode).instruction offset) = false :=
    isCreation_of_not_creates (not_creates_of_isPush (Script.isPush_dataPiece bytecode)) offset
  have hsite (offset : Nat) :
      isCreation (Piece.instruction
        ⟨.sysCall, some (Text.Utf8.encode Script.createService)⟩ offset) = true := by
    simp [isCreation, Piece.instruction]
  rw [hpieces, Script.place_append, Nat.zero_add]
  simp only [place]
  rw [ofCode_append hfront (hsource _) (hsite _)]
  have hoperand (offset : Nat) : ((dataPiece bytecode).instruction offset).operand
      = if bytecode = [] then none else some bytecode := Script.operand_dataPiece bytecode
  unfold creationAt
  rw [hoperand]
  by_cases hbytecode : bytecode = []
  · simp only [if_pos hbytecode]
    rfl
  · simp only [if_neg hbytecode]

/-- Only a deployment and a call of the creating service itself have a piece that creates. -/
theorem not_creates_pieces {s : Step} (hdeploy : ∀ bytecode name, s ≠ .deploy bytecode name)
    (hservice : s ≠ .sysCall Script.createService) : ∀ p ∈ s.pieces, ¬ Creates p := by
  intro p hp h
  have hcall := Script.mem_calls_of_is rfl (by decide) hp h
  cases s with
  | sysCall name =>
    rw [List.mem_singleton.mp hcall] at h
    exact hservice (congrArg Step.sysCall (Text.Utf8.encode_inj.mp (Option.some.inj h.2)))
  | appCall contract | invoke contract method args =>
    rw [List.mem_singleton.mp hcall] at h
    cases h.1
  | deploy bytecode name => exact hdeploy bytecode name rfl
  | _ => cases hcall

/-- **The first deployment decides.** Whatever steps of a builder stand before it, as long as none of
them deploys or calls the creating service, and whatever steps follow it, the contract that is located is
the one that has the bytecode of the first deployment, and there is none if this bytecode is empty. What
the bytes of names and data are is of no account. -/
theorem first_deployment_decides {front rest : List Step} {bytecode : List UInt8} {name : String}
    (hsteps : ∀ s ∈ front ++ .deploy bytecode name :: rest, s.Buildable ∧ s.NameFits)
    (hfront : ∀ s ∈ front, (∀ bytecode name, s ≠ .deploy bytecode name)
      ∧ s ≠ .sysCall Script.createService) :
    ∃ code, disassemble (assemble (front ++ .deploy bytecode name :: rest)) = .ok code ∧
      (bytecode ≠ [] → (Creation.ofCode code).contract?
        = some ⟨bytecode, ScriptHash.ofScript bytecode⟩) ∧
      (bytecode = [] → (Creation.ofCode code).contract? = none) := by
  have hnone : ∀ p ∈ front.flatMap Step.pieces, ¬ Creates p := by
    intro p hp
    obtain ⟨s, hs, hps⟩ := List.mem_flatMap.mp hp
    exact not_creates_pieces (hfront s hs).1 (hfront s hs).2 p hps
  have hcreation := ofCode_deploy hnone bytecode name (rest.flatMap Step.pieces)
  rw [List.append_assoc, ← List.flatMap_cons, ← List.flatMap_append] at hcreation
  refine ⟨_, Script.disassemble_assemble (Script.forall_fits hsteps), ?_, ?_⟩
  · intro hbytecode
    rw [hcreation, if_neg hbytecode]
    rfl
  · intro hbytecode
    rw [hcreation, if_pos hbytecode]
    rfl

/-- A text whose bytes are those of a call of the creating service. -/
def disguise : String :=
  "h\x13Neo.Contract.Create"

/-- A push of the disguise and another service. -/
def beforeDeployment : List Step :=
  [.pushText disguise, .sysCall "Neo.Runtime.Log"]

/-- Another deployment, and the creating service alone. -/
def afterDeployment : List Step :=
  [.deploy [0x51] "later", .sysCall Script.createService]

/-- The disguise is pushed before a deployment, and it is the name and the bytecode of it. Where the
bytecode is empty instead, the later deployment is not located either. -/
theorem first_deployment_decides_disguised :
    Text.Utf8.encode disguise = Script.Build.sysCall Script.createService ∧
    (∃ code, disassemble (assemble (beforeDeployment
        ++ .deploy (Text.Utf8.encode disguise) disguise :: afterDeployment)) = .ok code
      ∧ (Creation.ofCode code).contract?
        = some ⟨Text.Utf8.encode disguise, ScriptHash.ofScript (Text.Utf8.encode disguise)⟩) ∧
    ∃ code, disassemble (assemble (beforeDeployment
        ++ .deploy [] disguise :: afterDeployment)) = .ok code
      ∧ (Creation.ofCode code).contract? = none := by
  have hfront : ∀ s ∈ beforeDeployment, (∀ bytecode name, s ≠ .deploy bytecode name)
      ∧ s ≠ .sysCall Script.createService := by
    simp only [beforeDeployment, List.forall_mem_cons]
    exact ⟨⟨nofun, nofun⟩, ⟨nofun, by decide⟩, List.forall_mem_nil _⟩
  have hsteps : ∀ s ∈ beforeDeployment
      ++ .deploy (Text.Utf8.encode disguise) disguise :: afterDeployment,
      s.Buildable ∧ s.NameFits := by decide
  have hsteps' : ∀ s ∈ beforeDeployment ++ .deploy [] disguise :: afterDeployment,
      s.Buildable ∧ s.NameFits := by decide
  obtain ⟨code, hcode, hlocated, -⟩ := first_deployment_decides hsteps hfront
  obtain ⟨code', hcode', -, hnone⟩ := first_deployment_decides hsteps' hfront
  exact ⟨by decide, ⟨code, hcode, hlocated (by decide)⟩, code', hcode', hnone rfl⟩

end Registrar.Contract
