import Mathlib
import Registrar.Proofs.Contract.Invocation
import Registrar.Proofs.Script.RoundTrip

/-!
# The calls of an assembled script

What is extracted from an assembled script are the invocations of the contract among its steps, in
their order, each with its method and its arguments and at the place of the instruction that calls.
An invocation without a method name, or with more arguments than can be counted, is left out and has
no influence on the others.
-/

namespace Registrar.Contract

open Script (Instruction Step assemble disassemble preparation written)

/-! ## What is called, and where -/

/-- The method and the arguments of a call. -/
def Call.content (c : Call) : String × List (List UInt8) :=
  (c.method, c.args)

/-- The method and the arguments of a step that invokes `target` by a method with a name and with at
most as many arguments as can be counted. -/
def invocation? (target : ScriptHash) : Step → Option (String × List (List UInt8))
  | .invoke contract method args =>
    if contract = target ∧ method ≠ "" ∧ args.length ≤ 32767 then some (method, args) else none
  | _ => none

/-- A step calls what it invokes. -/
theorem map_content_stepCalls (target : ScriptHash) (offset : Nat) (s : Step) :
    (stepCalls target offset s).map Call.content = (invocation? target s).toList := by
  cases s with
  | invoke contract method args =>
    by_cases hread : contract = target ∧ method ≠ "" ∧ args.length ≤ maxCount
    · have hcalls : stepCalls target offset (.invoke contract method args)
          = [⟨offset + (written (preparation method args)).length, method, args⟩] := if_pos hread
      have hinvocation : invocation? target (.invoke contract method args) = some (method, args) :=
        if_pos hread
      rw [hcalls, hinvocation]
      rfl
    · have hcalls : stepCalls target offset (.invoke contract method args) = [] := if_neg hread
      have hinvocation : invocation? target (.invoke contract method args) = none := if_neg hread
      rw [hcalls, hinvocation]
      rfl
  | _ => rfl

/-- Steps call what they invoke, in order. -/
theorem map_content_scriptCalls (target : ScriptHash) (offset : Nat) (steps : List Step) :
    (scriptCalls target offset steps).map Call.content
      = steps.filterMap (invocation? target) := by
  induction steps generalizing offset with
  | nil => rfl
  | cons s steps ih =>
    rw [scriptCalls, List.map_append, map_content_stepCalls, ih, List.filterMap_cons]
    cases invocation? target s <;> rfl

/-- An invocation ends with the call. -/
theorem bytes_invoke (contract : ScriptHash) (method : String) (args : List (List UInt8)) :
    (Step.invoke contract method args).bytes
      = written (preparation method args) ++ Script.Build.appCall contract := by
  rw [← Script.written_pieces, Step.pieces, Script.written_append]
  congr 1
  exact List.flatMap_singleton _ _

/-- Each call of a script is where the script calls. -/
theorem exists_appCall {target : ScriptHash} {offset : Nat} {steps : List Step} {c : Call}
    (h : c ∈ scriptCalls target offset steps) :
    ∃ front back, assemble steps = front ++ Script.Build.appCall target ++ back
      ∧ c.offset = offset + front.length := by
  induction steps generalizing offset with
  | nil => cases h
  | cons s steps ih =>
    have hscript : assemble (s :: steps) = s.bytes ++ assemble steps := rfl
    rcases List.mem_append.mp h with h | h
    · -- only an invocation calls, and its call is the last thing that it writes
      cases s with
      | invoke contract method args =>
        change c ∈ (if _ then _ else _) at h
        split_ifs at h with hread
        · rw [List.mem_singleton.mp h, ← hread.1]
          exact ⟨written (preparation method args), assemble steps,
            by rw [hscript, bytes_invoke], rfl⟩
        · cases h
      | _ => cases h
    · obtain ⟨front, back, hback, hplace⟩ := ih h
      refine ⟨s.bytes ++ front, back, ?_, ?_⟩
      · rw [hscript, hback]
        simp only [List.append_assoc]
      · rw [hplace, List.length_append, Nat.add_assoc]

/-! ## Extraction -/

/-- From a script of any invocations, and of any other steps that do not call the contract
themselves, the invocations of the contract are extracted that have a method name and at most 32767
arguments: all of them and no others, in their order, with their arguments in order and where they
call. -/
theorem extract_invocations {target : ScriptHash} {steps : List Step}
    (hsteps : ∀ s ∈ steps, s.Buildable ∧ s.NameFits) (hcalls : ∀ s ∈ steps, s ≠ .appCall target) :
    ∃ code, disassemble (assemble steps) = .ok code ∧
      (extract (some target) code).result = .ok (scriptCalls target 0 steps) ∧
      (scriptCalls target 0 steps).map Call.content = steps.filterMap (invocation? target) ∧
      ∀ c ∈ scriptCalls target 0 steps, ∃ front back,
        assemble steps = front ++ Script.Build.appCall target ++ back
          ∧ c.offset = front.length := by
  have hfits : ∀ s ∈ steps, s.Fits := fun s hs => (hsteps s hs).1.fits (hsteps s hs).2
  refine ⟨_, Script.disassemble_assemble hfits, extract_assemble hcalls,
    map_content_scriptCalls target 0 steps, ?_⟩
  intro c hc
  obtain ⟨front, back, hscript, hplace⟩ := exists_appCall hc
  rw [Nat.zero_add] at hplace
  exact ⟨front, back, hscript, hplace⟩

/-- Two invocations, of which the first one names no method, and a service between them. -/
def namelessFirst : List Step :=
  [.invoke .zero "" [[1]], .sysCall Script.createService, .invoke .zero "hello" [[1], [2]]]

/-- The second invocation is found where it calls, whatever the first one is. -/
theorem extract_invocations_nameless :
    (∀ s ∈ namelessFirst, s.Buildable ∧ s.NameFits) ∧
    (∀ s ∈ namelessFirst, s ≠ .appCall .zero) ∧
    ∃ code, disassemble (assemble namelessFirst) = .ok code ∧
      (extract (some .zero) code).result = .ok [⟨59, "hello", [[1], [2]]⟩] := by
  have hsteps : ∀ s ∈ namelessFirst, s.Buildable ∧ s.NameFits := by decide
  have hcalls : ∀ s ∈ namelessFirst, s ≠ .appCall .zero := by decide
  have hfound : scriptCalls .zero 0 namelessFirst = [⟨59, "hello", [[1], [2]]⟩] := by
    decide +kernel
  obtain ⟨code, hcode, hresult, _⟩ := extract_invocations hsteps hcalls
  rw [hfound] at hresult
  exact ⟨hsteps, hcalls, code, hcode, hresult⟩

end Registrar.Contract
