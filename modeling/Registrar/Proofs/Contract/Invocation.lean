import Mathlib
import Registrar.Contract.Call
import Registrar.Proofs.Script.Assembly
import Registrar.Proofs.Script.Integer
import Registrar.Proofs.ScriptHash

/-!
# Calls are read as they were compiled

The reading of calls is the inverse of compiling them. A call that was compiled with its arguments
is found again with the same method and the same arguments in the same order, at the place of the
instruction that calls. Only two kinds of compiled calls are passed over: one whose method has an
empty name, for then the instruction before the call has no operand, and one with more arguments
than fifteen bits count. Neither makes the script unreadable.
-/

namespace Registrar.Contract

open Script (Instruction Opcode Piece Step dataPiece textPiece intPiece preparation place)

/-! ## What a push is read as -/

/-- The text of a pushed text is the text, except that an empty one leaves none. -/
theorem operandText?_textPiece (text : String) (offset : Nat) :
    ((textPiece text).instruction offset).operandText? = if text = "" then none else some text := by
  have hempty : Text.Utf8.encode text = [] ↔ text = "" := by
    constructor
    · intro h
      exact Text.Utf8.encode_inj.mp (h.trans (by decide))
    · rintro rfl
      decide
  unfold Instruction.operandText? Piece.instruction textPiece
  rw [Script.operand_dataPiece]
  by_cases htext : text = ""
  · rw [if_pos htext, if_pos (hempty.mpr htext)]
    rfl
  · rw [if_neg htext, if_neg (mt hempty.mp htext)]
    exact Text.Utf8.decode?_encode text

/-- The most arguments that a call can have. -/
def maxCount : Nat := 32767

/-- A pushed byte string is a count if it has one or two bytes and a clear sign. -/
theorem count?_dataPiece {data : List UInt8} {b : UInt8} (hlast : data.getLast? = some b)
    (hsign : b.toNat < 128) (offset : Nat) :
    count? ((dataPiece data).instruction offset)
      = if data.length ≤ 2 then some (Radix.ofLittleEndian data) else none := by
  have hpos : 0 < data.length := by
    cases data with
    | nil => cases hlast
    | cons d data => exact Nat.succ_pos _
  unfold dataPiece
  rw [if_neg (by omega)]
  split_ifs with h75 hlength h255 hlong hlong
  · simp [count?, Piece.instruction, Opcode.smallInt?, Opcode.isPushBytes, hlast, hsign, hlength]
  · simp [count?, Piece.instruction, Opcode.smallInt?, Opcode.isPushBytes, hlength]
  all_goals first | omega | rfl

/-- A pushed number is a count if fifteen bits hold it. -/
theorem count?_intPiece (n offset : Nat) :
    count? ((intPiece n).instruction offset) = if n ≤ maxCount then some n else none := by
  unfold intPiece
  by_cases hsmall : n ≤ 16
  · rw [if_pos (show n ≤ maxCount from hsmall.trans (by decide))]
    unfold Opcode.ofSmallInt?
    split_ifs with h0
    · rw [h0]
      rfl
    · show some (n - 1 + 1) = some n
      rw [Nat.sub_add_cancel (by omega)]
  · have hop : Opcode.ofSmallInt? n = none := by
      unfold Opcode.ofSmallInt?
      rw [if_neg (by omega), dif_neg hsmall]
    obtain ⟨b, hlast⟩ : ∃ b, (Script.Build.signedDigits n).getLast? = some b :=
      Option.ne_none_iff_exists'.mp fun h =>
        Script.Build.signedDigits_ne_nil (by omega) (List.getLast?_eq_none_iff.mp h)
    have hlength : (Script.Build.signedDigits n).length ≤ 2 ↔ n ≤ maxCount :=
      (Script.Build.length_signedDigits_le_iff n 1).trans Nat.lt_succ_iff
    rw [hop]
    show count? ((dataPiece (Script.Build.signedDigits n)).instruction offset) = _
    rw [count?_dataPiece hlast (Script.Build.lt_128_of_getLast?_signedDigits hlast),
      Script.Build.ofLittleEndian_signedDigits]
    simp only [hlength]

/-! ## Reading a script in parts -/

/-- A walk over two stretches of code walks the second with the first before it. -/
theorem readings_append (contract : ScriptHash) (before code rest : List Instruction) :
    readings contract before (code ++ rest)
      = readings contract before code ++ readings contract (code.reverse ++ before) rest := by
  induction code generalizing before with
  | nil => rfl
  | cons i code ih =>
    rw [List.cons_append, readings, readings, ih, List.reverse_cons, List.append_assoc]
    split_ifs <;> rfl

/-- Code that does not call the contract has nothing to read. -/
theorem readings_eq_nil {contract : ScriptHash} {before code : List Instruction}
    (h : ∀ i ∈ code, isCallOf contract i = false) : readings contract before code = [] := by
  induction code generalizing before with
  | nil => rfl
  | cons i code ih =>
    rw [readings, h i List.mem_cons_self, Bool.and_false, if_neg Bool.false_ne_true]
    exact ih fun j hj => h j (List.mem_cons_of_mem _ hj)

/-- The call that a reading gives. -/
def Reading.call? : Reading → Option Call
  | .call found => some found
  | _ => none

/-- Whether readings give just these calls, and none of them points before the start. -/
def Gives (rs : List Reading) (calls : List Call) : Prop :=
  (∀ r ∈ rs, ∀ fault, r ≠ .underflow fault) ∧ rs.filterMap Reading.call? = calls

theorem gives_nil : Gives [] [] :=
  ⟨fun _ h => absurd h List.not_mem_nil, rfl⟩

theorem Gives.append {rs rs' : List Reading} {calls calls' : List Call} (h : Gives rs calls)
    (h' : Gives rs' calls') : Gives (rs ++ rs') (calls ++ calls') := by
  refine ⟨List.forall_mem_append.mpr ⟨h.1, h'.1⟩, ?_⟩
  rw [List.filterMap_append, h.2, h'.2]

/-- The calls that the readings give are what is extracted. -/
theorem Gives.result {rs : List Reading} {calls : List Call} (h : Gives rs calls) :
    (Extraction.ofReadings rs).result = .ok calls := by
  suffices hfields : (Extraction.ofReadings rs).fault = none
      ∧ (Extraction.ofReadings rs).calls = calls by
    unfold Extraction.result
    rw [hfields.1, hfields.2]
  induction rs generalizing calls with
  | nil => exact ⟨rfl, h.2⟩
  | cons r rs ih =>
    obtain ⟨hfault, hcalls⟩ := ih ⟨fun r hr => h.1 r (List.mem_cons_of_mem _ hr), rfl⟩
    cases r with
    | call call =>
      refine ⟨hfault, ?_⟩
      show call :: (Extraction.ofReadings rs).calls = calls
      rw [hcalls]
      exact h.2
    | skipped reason => exact ⟨hfault, hcalls.trans h.2⟩
    | underflow fault => exact absurd rfl (h.1 _ List.mem_cons_self fault)

/-! ## One compiled call -/

/-- Arguments that stand ready are all taken, and what is before them does not matter. -/
theorem arguments_eq {code : List Instruction} {values : List (List UInt8)}
    (h : code.map Instruction.pushValue? = values.map some) (argument : Nat)
    (before : List Instruction) :
    arguments argument values.length (code ++ before) = .ok values := by
  induction values generalizing code argument with
  | nil => rfl
  | cons value values ih =>
    obtain _ | ⟨i, code⟩ := code
    · cases h
    · rw [List.map_cons, List.map_cons, List.cons.injEq] at h
      rw [List.length_cons, List.cons_append, arguments, h.1]
      simp only [ih h.2]

/-- What a compiled call is read as, with whatever before it. -/
theorem readCall_preparation (offset start : Nat) (method : String) (args : List (List UInt8))
    (before : List Instruction) :
    readCall offset ((place start (preparation method args)).reverse ++ before)
      = if method = "" then .skipped (.noMethod offset)
        else if args.length ≤ maxCount then .call ⟨offset, method, args⟩
        else .skipped (.noCount method offset) := by
  -- the arguments stand last to first, so the walk backwards meets them in order
  have hvalues : (place start (args.reverse.map dataPiece)).reverse.map Instruction.pushValue?
      = args.map some := by
    have hpush : (place start (args.reverse.map dataPiece)).map Instruction.pushValue?
        = (args.reverse.map dataPiece).map fun p => (p.instruction 0).pushValue? :=
      Script.map_place fun _ _ => rfl
    rw [List.map_reverse, hpush, List.map_map, ← List.map_reverse, List.reverse_reverse]
    exact List.map_congr_left fun arg _ => Script.pushValue?_dataPiece arg 0
  rw [preparation, Script.place_append, List.reverse_append, List.append_assoc]
  generalize (place start (args.reverse.map dataPiece)).reverse = code at hvalues ⊢
  simp only [place, List.reverse_cons, List.reverse_nil, List.nil_append, List.cons_append,
    readCall, List.head?_cons, Option.bind_some, operandText?_textPiece, List.drop_succ_cons,
    List.drop_zero, count?_intPiece]
  by_cases hmethod : method = ""
  · simp only [if_pos hmethod]
  simp only [if_neg hmethod]
  by_cases hcount : args.length ≤ maxCount
  · simp only [if_pos hcount, arguments_eq hvalues]
  · simp only [if_neg hcount]

/-! ## The calls of steps -/

/-- The calls of `target` that a step makes which stands at `offset` of its script. A call is at the
place of its last instruction. -/
def stepCalls (target : ScriptHash) (offset : Nat) : Step → List Call
  | .invoke contract method args =>
    if contract = target ∧ method ≠ "" ∧ args.length ≤ maxCount then
      [⟨offset + (Script.written (preparation method args)).length, method, args⟩]
    else []
  | _ => []

/-- The calls of `target` that steps make, of which the first stands at `offset`. -/
def scriptCalls (target : ScriptHash) (offset : Nat) : List Step → List Call
  | [] => []
  | s :: steps => stepCalls target offset s ++ scriptCalls target (offset + s.bytes.length) steps

/-- Whether a piece calls the contract. -/
def Calls (target : ScriptHash) : Piece → Prop :=
  Piece.Is .appCall target.bytes

/-- Making a call ready is not yet a call. -/
theorem not_calls_preparation {target : ScriptHash} (method : String) (args : List (List UInt8)) :
    ∀ p ∈ preparation method args, ¬ Calls target p :=
  Script.not_is_preparation rfl (by decide) method args

/-- Pieces of which none calls the contract have nothing to read. -/
theorem readings_place_eq_nil {target : ScriptHash} {ps : List Piece}
    (h : ∀ p ∈ ps, ¬ Calls target p) (before : List Instruction) (offset : Nat) :
    readings target before (place offset ps) = [] := by
  apply readings_eq_nil
  apply Script.forall_mem_place
  intro p hp offset
  exact Piece.decide_is (h p hp)

/-- Only the two steps that call a contract have a piece that does. -/
theorem not_calls_pieces {target : ScriptHash} {s : Step} (happ : s ≠ .appCall target)
    (hinvoke : ∀ contract method args, s ≠ .invoke contract method args) :
    ∀ p ∈ s.pieces, ¬ Calls target p := by
  intro p hp h
  have hcall := Script.mem_calls_of_is rfl (by decide) hp h
  cases s with
  | sysCall name | deploy bytecode name =>
    rw [List.mem_singleton.mp hcall] at h
    cases h.1
  | appCall contract =>
    rw [List.mem_singleton.mp hcall] at h
    exact happ (congrArg Step.appCall (ScriptHash.ext_bytes (Option.some.inj h.2)))
  | invoke contract method args => exact hinvoke contract method args rfl
  | _ => cases hcall

/-- The last instruction of a compiled call is the call, and what stands before it is read. -/
theorem gives_invoke (target contract : ScriptHash) (method : String) (args : List (List UInt8))
    (before : List Instruction) (offset : Nat) :
    Gives (readings target before (place offset (Step.invoke contract method args).pieces))
      (stepCalls target offset (.invoke contract method args)) := by
  have hready : readings target before (place offset (preparation method args)) = [] :=
    readings_place_eq_nil (not_calls_preparation method args) _ _
  have hread := readCall_preparation (offset + (Script.written (preparation method args)).length)
    offset method args before
  have hbefore :
      ((place offset (preparation method args)).reverse ++ before).isEmpty = false := by
    rw [preparation, Script.place_append]
    simp [place]
  rw [Step.pieces, Script.place_append, readings_append, hready, List.nil_append]
  simp only [place, readings, hbefore, Bool.not_false, Bool.true_and, stepCalls]
  by_cases htarget : contract = target
  · subst htarget
    have hcall (offset : Nat) :
        isCallOf contract (Piece.instruction ⟨.appCall, some contract.bytes⟩ offset) = true := by
      simp [isCallOf, Piece.instruction]
    rw [if_pos (hcall _)]
    show Gives [readCall _ _] _
    rw [Piece.instruction, hread]
    by_cases hmethod : method = ""
    · rw [if_pos hmethod, if_neg (fun h => h.2.1 hmethod)]
      exact ⟨by simp, rfl⟩
    by_cases hcount : args.length ≤ maxCount
    · rw [if_neg hmethod, if_pos hcount, if_pos ⟨rfl, hmethod, hcount⟩]
      exact ⟨by simp, rfl⟩
    · rw [if_neg hmethod, if_neg hcount, if_neg (fun h => hcount h.2.2)]
      exact ⟨by simp, rfl⟩
  · have hcall (offset : Nat) :
        isCallOf target (Piece.instruction ⟨.appCall, some contract.bytes⟩ offset) ≠ true := by
      simp only [isCallOf, Piece.instruction, decide_true, Bool.true_and, ne_eq, decide_eq_true_eq,
        Option.some.injEq]
      exact fun h => htarget (ScriptHash.ext_bytes h)
    rw [if_neg (hcall _), if_neg (fun h => htarget h.1)]
    exact gives_nil

/-- A step that does not itself call the contract gives its calls, and no other. -/
theorem gives_step {target : ScriptHash} {s : Step} (h : s ≠ .appCall target)
    (before : List Instruction) (offset : Nat) :
    Gives (readings target before (place offset s.pieces)) (stepCalls target offset s) := by
  by_cases hinvoke : ∃ contract method args, s = .invoke contract method args
  · obtain ⟨contract, method, args, rfl⟩ := hinvoke
    exact gives_invoke target contract method args before offset
  · have hnone : ∀ contract method args, s ≠ .invoke contract method args :=
      fun contract method args hs => hinvoke ⟨contract, method, args, hs⟩
    have hcalls : stepCalls target offset s = [] := by
      cases s with
      | invoke contract method args => exact absurd rfl (hnone contract method args)
      | _ => rfl
    rw [readings_place_eq_nil (not_calls_pieces h hnone), hcalls]
    exact gives_nil

/-- What is read of an assembled script is the calls of its steps. -/
theorem gives_steps {target : ScriptHash} {steps : List Step} (h : ∀ s ∈ steps, s ≠ .appCall target)
    (before : List Instruction) (offset : Nat) :
    Gives (readings target before (place offset (steps.flatMap Step.pieces)))
      (scriptCalls target offset steps) := by
  induction steps generalizing before offset with
  | nil => exact gives_nil
  | cons s steps ih =>
    rw [List.flatMap_cons, Script.place_append, readings_append, Script.written_pieces]
    exact (gives_step (h s List.mem_cons_self) before offset).append
      (ih (fun t ht => h t (List.mem_cons_of_mem _ ht)) _ _)

/-- The calls of the contract that an assembled script makes are extracted from it. -/
theorem extract_assemble {target : ScriptHash} {steps : List Step}
    (h : ∀ s ∈ steps, s ≠ .appCall target) :
    (extract (some target) (place 0 (steps.flatMap Step.pieces))).result
      = .ok (scriptCalls target 0 steps) :=
  (gives_steps h [] 0).result

end Registrar.Contract
