import Mathlib
import Registrar.Proofs.Contract.Reading

/-!
# Looking up instructions by number

Extraction walks along lists and cannot miss its aim. It may as well be done with every instruction
looked up by its number, and then each look-up could fail. None does: a call looks for nothing beyond
the start without noticing it first, and for nothing beyond the end.
-/

namespace Registrar.Contract

open Script (Instruction)

/-! ## Reading by number -/

/-- The arguments from number `argument` on of the call of number `i`, looked up by the numbers of the
instructions. There is no answer if a number is looked up that no instruction has. -/
def fetchArguments (code : List Instruction) (i argument : Nat) :
    Nat → Option (Except Gap (List (List UInt8)))
  | 0 => some (.ok [])
  | count + 1 =>
    if i < 4 + argument then some (.error (.start argument))
    else do
      let arg ← code[i - (4 + argument)]?
      match arg.pushValue? with
      | none => some (.error (.notPush argument))
      | some value =>
        match ← fetchArguments code i (argument + 1) count with
        | .error gap => some (.error gap)
        | .ok values => some (.ok (value :: values))

/-- The reading of the call of number `i`, with all that it needs looked up by number. -/
def fetchCall (code : List Instruction) (i : Nat) : Option Reading := do
  let site ← code[i]?
  let previous ← code[i - 1]?
  match previous.operandText? with
  | none => some (.skipped (.noMethod site.offset))
  | some method =>
    if i < 3 then some (.underflow ⟨site.offset, i, 3⟩)
    else do
      let counter ← code[i - 3]?
      match count? counter with
      | none => some (.skipped (.noCount method site.offset))
      | some count =>
        match ← fetchArguments code i 0 count with
        | .ok args => some (.call ⟨site.offset, method, args⟩)
        | .error (.start argument) => some (.underflow ⟨site.offset, i, 4 + argument⟩)
        | .error (.notPush argument) => some (.skipped (.notPush method site.offset argument))

/-- The readings of the calls among the instructions of these numbers. -/
def fetchReadings (contract : ScriptHash) (code : List Instruction) :
    List Nat → Option (List Reading)
  | [] => some []
  | i :: rest => do
    let site ← code[i]?
    if isCallOf contract site then
      let reading ← fetchCall code i
      let readings ← fetchReadings contract code rest
      return reading :: readings
    else fetchReadings contract code rest

/-- Extraction with all that it needs looked up by number, from the second instruction on. -/
def fetchExtraction (contract : ScriptHash) (code : List Instruction) : Option Extraction :=
  (fetchReadings contract code (List.range' 1 (code.length - 1))).map Extraction.ofReadings

/-! ## All numbers -/

section

variable {contract : ScriptHash} {code : List Instruction}

/-- The reading of the call of number `i`, if a call of the contract stands there. -/
def readingAt? (contract : ScriptHash) (code : List Instruction) (i : Nat) : Option Reading :=
  code[i]?.bind fun site =>
    if 1 ≤ i ∧ isCallOf contract site then some (readCall site.offset (code.take i).reverse)
    else none

/-- A walk along code reads what stands at its numbers, counted with what stands before it. -/
theorem readings_eq (before code : List Instruction) :
    readings contract before code
      = (List.range' before.length code.length).filterMap
          (readingAt? contract (before.reverse ++ code)) := by
  induction code generalizing before with
  | nil => rfl
  | cons i code ih =>
    have hfull : (i :: before).reverse ++ code = before.reverse ++ i :: code := by
      rw [List.reverse_cons, List.append_assoc]
      rfl
    have hlength : before.reverse.length = before.length := List.length_reverse
    have hat : (before.reverse ++ i :: code)[before.length]? = some i := by
      rw [← hlength, List.getElem?_append_right (Nat.le_refl _), Nat.sub_self]
      rfl
    have htake : ((before.reverse ++ i :: code).take before.length).reverse = before := by
      rw [List.take_left' hlength, List.reverse_reverse]
    have hnext := ih (i :: before)
    rw [hfull, List.length_cons] at hnext
    have hread : readingAt? contract (before.reverse ++ i :: code) before.length
        = if !before.isEmpty && isCallOf contract i then some (readCall i.offset before)
          else none := by
      unfold readingAt?
      rw [hat, htake]
      cases before <;> simp
    rw [readings, hnext, List.length_cons, List.range'_succ, List.filterMap_cons, hread]
    split_ifs <;> rfl

/-- The readings of a whole script are those at its numbers. -/
theorem readings_nil_eq (contract : ScriptHash) (code : List Instruction) :
    readings contract [] code = (List.range code.length).filterMap (readingAt? contract code) := by
  rw [List.range_eq_range']
  exact readings_eq [] code

/-! ## No number is looked up in vain -/

/-- All arguments are looked up at numbers that the code has. -/
theorem fetchArguments_eq {i argument : Nat} (hi : i + 3 ≤ code.length) (h : argument ≤ i)
    (count : Nat) :
    fetchArguments code (i + 3) argument count
      = some (arguments argument count (code.take (i - argument)).reverse) := by
  induction count generalizing argument with
  | zero => rfl
  | succ count ih =>
    rw [fetchArguments]
    by_cases hstart : i = argument
    · rw [if_pos (by omega), hstart, Nat.sub_self, List.take_zero]
      rfl
    · obtain ⟨k, hk⟩ : ∃ k, i - argument = k + 1 := ⟨i - argument - 1, by omega⟩
      have hplace : i + 3 - (4 + argument) = k := by omega
      have hrest : i - (argument + 1) = k := by omega
      have hlt : k < code.length := by omega
      have htake : (code.take (k + 1)).reverse = code[k] :: (code.take k).reverse := by
        rw [List.take_succ_eq_append_getElem hlt, List.reverse_append]
        rfl
      rw [if_neg (by omega), hplace, List.getElem?_eq_getElem hlt, hk, htake, arguments,
        ih (by omega), hrest]
      simp only [Option.bind_eq_bind, Option.bind_some]
      cases code[k].pushValue? with
      | none => rfl
      | some value =>
        simp only
        cases arguments (argument + 1) count (code.take k).reverse <;> rfl

/-- All that a call needs is looked up at numbers that the code has. -/
theorem fetchCall_eq {i : Nat} (hpos : 1 ≤ i) {site : Instruction} (hsite : code[i]? = some site) :
    fetchCall code i = some (readCall site.offset (code.take i).reverse) := by
  have hi : i < code.length := (List.getElem?_eq_some_iff.mp hsite).1
  have hbefore : i - 1 < code.length := by omega
  unfold fetchCall
  rw [hsite, List.getElem?_eq_getElem hbefore]
  simp only [Option.bind_eq_bind, Option.bind_some]
  have hmethod : code[i - 1].operandText? = methodAt? code i := by
    unfold methodAt?
    rw [List.getElem?_eq_getElem hbefore]
    rfl
  rw [hmethod]
  by_cases hlt : i < 3
  · rw [readCall_of_lt site.offset hpos hlt hi.le]
    cases methodAt? code i with
    | none => rfl
    | some method => exact if_pos hlt
  · obtain ⟨j, rfl⟩ : ∃ j, i = j + 3 := ⟨i - 3, by omega⟩
    have hcount : count? code[j] = countAt? code (j + 3) := by
      unfold countAt?
      rw [Nat.add_sub_cancel, List.getElem?_eq_getElem (show j < code.length by omega)]
      rfl
    rw [readCall_of_le site.offset hi.le]
    cases methodAt? code (j + 3) with
    | none => rfl
    | some method =>
      simp only [if_neg hlt, Nat.add_sub_cancel,
        List.getElem?_eq_getElem (show j < code.length by omega), Option.bind_some, hcount]
      cases countAt? code (j + 3) with
      | none => rfl
      | some count =>
        simp only [fetchArguments_eq hi.le (Nat.zero_le j), Nat.sub_zero, Option.bind_some]
        rcases arguments 0 count (code.take j).reverse with (missing | argument) | args <;> rfl

theorem fetchReadings_eq {numbers : List Nat} (h : ∀ i ∈ numbers, 1 ≤ i ∧ i < code.length) :
    fetchReadings contract code numbers
      = some (numbers.filterMap (readingAt? contract code)) := by
  induction numbers with
  | nil => rfl
  | cons i numbers ih =>
    obtain ⟨⟨hpos, hi⟩, hrest⟩ := List.forall_mem_cons.mp h
    have hat : code[i]? = some code[i] := List.getElem?_eq_getElem hi
    rw [fetchReadings, ih hrest, hat, fetchCall_eq hpos hat, List.filterMap_cons]
    unfold readingAt?
    rw [hat]
    simp only [Option.bind_eq_bind, Option.bind_some]
    by_cases hcall : isCallOf contract code[i] = true
    · rw [if_pos hcall, if_pos ⟨hpos, hcall⟩]
      rfl
    · rw [if_neg hcall, if_neg fun hsite => hcall hsite.2]

/-- Looking up by number is never in vain, and extracts what is extracted. -/
theorem fetchExtraction_eq (contract : ScriptHash) (code : List Instruction) :
    fetchExtraction contract code = some (extract (some contract) code) := by
  have hnumbers : ∀ i ∈ List.range' 1 (code.length - 1), 1 ≤ i ∧ i < code.length := by
    intro i hi
    rw [List.mem_range'_1] at hi
    omega
  have hrange : (List.range code.length).filterMap (readingAt? contract code)
      = (List.range' 1 (code.length - 1)).filterMap (readingAt? contract code) := by
    cases hlength : code.length with
    | zero => rfl
    | succ n =>
      have hfirst : readingAt? contract code 0 = none := by
        unfold readingAt?
        cases code[0]? <;> simp
      rw [List.range_eq_range', List.range'_succ, List.filterMap_cons, hfirst]
      rfl
  unfold fetchExtraction
  rw [fetchReadings_eq hnumbers, ← hrange, ← readings_nil_eq]
  rfl

end

end Registrar.Contract
