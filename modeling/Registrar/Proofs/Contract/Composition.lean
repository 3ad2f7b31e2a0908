import Mathlib
import Registrar.Proofs.Contract.Sites
import Registrar.Proofs.Script.Composition
import Registrar.Proofs.Script.RoundTrip

/-!
# The calls of scripts one after the other

A call that is read leads nowhere before the start of its script, so it is read just the same when
other code stands before it, only further on. Two things can change when code is placed before a
script: a site that led before the start may now find something there, and the first instruction, which
alone is never a call, may now be one.
-/

namespace Registrar.Contract

open Script (Instruction Step assemble disassemble)

/-! ## Further on -/

/-- The same call `n` bytes further on. -/
def Call.shift (n : Nat) (c : Call) : Call :=
  { c with offset := c.offset + n }

/-- The same reason `n` bytes further on. -/
def Skip.shift (n : Nat) : Skip → Skip
  | .noMethod offset => .noMethod (offset + n)
  | .noCount method offset => .noCount method (offset + n)
  | .notPush method offset argument => .notPush method (offset + n) argument

/-- The same reading `n` bytes further on. -/
def Reading.shift (n : Nat) : Reading → Reading
  | .call c => .call (c.shift n)
  | .skipped reason => .skipped (reason.shift n)
  | .underflow fault => .underflow { fault with offset := fault.offset + n }

section

variable (n : Nat) (i : Instruction)

@[simp] theorem pushValue?_shift : (i.shift n).pushValue? = i.pushValue? := rfl

@[simp] theorem operandText?_shift : (i.shift n).operandText? = i.operandText? := rfl

@[simp] theorem count?_shift : count? (i.shift n) = count? i := rfl

@[simp] theorem isCallOf_shift (contract : ScriptHash) :
    isCallOf contract (i.shift n) = isCallOf contract i := rfl

end

/-! ## What stands before -/

/-- Arguments that do not lead before the start are the same with more code before them. -/
theorem arguments_append {argument count : Nat} {before : List Instruction}
    (h : ∀ missing, arguments argument count before ≠ .error (.start missing)) (n : Nat)
    (front : List Instruction) :
    arguments argument count (before.map (Instruction.shift n) ++ front)
      = arguments argument count before := by
  induction count generalizing argument before with
  | zero => rfl
  | succ count ih =>
    cases before with
    | nil => exact absurd rfl (h argument)
    | cons i before =>
      rw [List.map_cons, List.cons_append, arguments, arguments, pushValue?_shift]
      rw [arguments] at h
      cases hvalue : i.pushValue? with
      | none => rfl
      | some value =>
        have hrest : ∀ missing,
            arguments (argument + 1) count before ≠ .error (.start missing) := by
          intro missing hstart
          simp only [hvalue, hstart] at h
          exact h missing rfl
        simp only [ih hrest]

/-- A call that has something before it and does not lead before the start is read the same with more
code before it. -/
theorem readCall_append {offset : Nat} {before : List Instruction} (hbefore : before ≠ [])
    (h : (readCall offset before).fault? = none) (n : Nat) (front : List Instruction) :
    readCall (offset + n) (before.map (Instruction.shift n) ++ front)
      = (readCall offset before).shift n := by
  obtain _ | ⟨i, before⟩ := before
  · exact absurd rfl hbefore
  cases hmethod : i.operandText? with
  | none => simp [readCall, hmethod, Reading.shift, Skip.shift]
  | some method =>
    -- with a method, the count has to be there, or the call leads before the start
    obtain _ | ⟨j, _ | ⟨counter, rest⟩⟩ := before
    · simp [readCall, hmethod, Reading.fault?] at h
    · simp [readCall, hmethod, Reading.fault?] at h
    · cases hcount : count? counter with
      | none => simp [readCall, hmethod, hcount, Reading.shift, Skip.shift]
      | some count =>
        have hstart : ∀ missing, arguments 0 count rest ≠ .error (.start missing) := by
          intro missing hmissing
          simp [readCall, hmethod, hcount, hmissing, Reading.fault?] at h
        have hargs := arguments_append hstart n front
        rcases hread : arguments 0 count rest with (missing | argument) | args
        · exact absurd hread (hstart missing)
        · rw [hread] at hargs
          simp [readCall, hmethod, hcount, hread, hargs, Reading.shift, Skip.shift]
        · rw [hread] at hargs
          simp [readCall, hmethod, hcount, hread, hargs, Reading.shift, Call.shift]

/-- Whether a reading is what another one becomes `n` bytes further on, unless that one leads before the
start. -/
def Moves (n : Nat) (r r' : Reading) : Prop :=
  r.fault? = none → r' = r.shift n

/-- Code that has something before it is read the same with more code before it, reading by
reading. -/
theorem forall₂_moves (contract : ScriptHash) {before : List Instruction} (hbefore : before ≠ [])
    (n : Nat) (front code : List Instruction) :
    List.Forall₂ (Moves n) (readings contract before code)
      (readings contract (before.map (Instruction.shift n) ++ front)
        (code.map (Instruction.shift n))) := by
  induction code generalizing before with
  | nil => exact .nil
  | cons i code ih =>
    have hrest := ih (List.cons_ne_nil i before)
    have hempty : before.isEmpty = false := List.isEmpty_eq_false_iff.mpr hbefore
    have hmore : (before.map (Instruction.shift n) ++ front).isEmpty = false := by
      simp [hbefore]
    rw [List.map_cons, readings, readings, isCallOf_shift, hempty, hmore]
    cases isCallOf contract i with
    | false => exact hrest
    | true => exact .cons (fun h => readCall_append hbefore h n front) hrest

/-- Behind other code, code is read as it is read alone, further on; only that its first instruction
may be read as a call, if it is one. -/
theorem exists_readings_behind (contract : ScriptHash) (n : Nat) (front code : List Instruction) :
    ∃ first rest, readings contract front (code.map (Instruction.shift n)) = first ++ rest
      ∧ List.Forall₂ (Moves n) (readings contract [] code) rest
      ∧ ((∀ i, code.head? = some i → isCallOf contract i = false) → first = []) := by
  cases code with
  | nil => exact ⟨[], [], rfl, .nil, fun _ => rfl⟩
  | cons i code =>
    have hrest := forall₂_moves contract (List.cons_ne_nil i []) n front code
    rw [List.map_cons, readings, readings, isCallOf_shift]
    by_cases hcall : (!front.isEmpty && isCallOf contract i) = true
    · rw [if_pos hcall]
      refine ⟨[readCall (i.shift n).offset front], _, rfl, hrest, fun h => ?_⟩
      rw [h i rfl, Bool.and_false] at hcall
      cases hcall
    · rw [if_neg hcall]
      exact ⟨[], _, rfl, hrest, fun _ => rfl⟩

/-! ## What is extracted -/

theorem call?_shift (n : Nat) (r : Reading) : (r.shift n).call? = r.call?.map (Call.shift n) := by
  cases r <;> rfl

theorem fault?_eq_none_iff {r : Reading} : r.fault? = none ↔ ∀ fault, r ≠ .underflow fault := by
  cases r <;> simp [Reading.fault?]

theorem fault?_shift_eq_none_iff {n : Nat} {r : Reading} :
    (r.shift n).fault? = none ↔ r.fault? = none := by
  cases r <;> simp [Reading.shift, Reading.fault?]

/-- Readings give calls just if these are extracted. -/
theorem result_ofReadings_eq_ok_iff {rs : List Reading} {calls : List Call} :
    (Extraction.ofReadings rs).result = .ok calls ↔ Gives rs calls := by
  constructor
  · intro h
    have hnone := fault_eq_none_of_result h
    rw [fault_ofReadings, List.findSome?_eq_none_iff] at hnone
    have hgives : Gives rs (rs.filterMap Reading.call?) :=
      ⟨fun r hr => fault?_eq_none_iff.mp (hnone r hr), rfl⟩
    rw [hgives.result] at h
    rwa [← Except.ok.inj h]
  · exact Gives.result

/-- Readings further on give the calls further on. -/
theorem Gives.moves {n : Nat} {rs rs' : List Reading} {calls : List Call} (h : Gives rs calls)
    (hmoves : List.Forall₂ (Moves n) rs rs') : Gives rs' (calls.map (Call.shift n)) := by
  have hnone : ∀ r ∈ rs, r.fault? = none := fun r hr => fault?_eq_none_iff.mpr (h.1 r hr)
  have hmap : rs' = rs.map (Reading.shift n) := by
    clear h
    induction hmoves with
    | nil => rfl
    | cons hmove _ ih =>
      obtain ⟨hfirst, hrest⟩ := List.forall_mem_cons.mp hnone
      rw [List.map_cons, ← ih hrest, hmove hfirst]
  subst hmap
  refine ⟨List.forall_mem_map.mpr ?_, ?_⟩
  · intro r hr
    exact fault?_eq_none_iff.mp (fault?_shift_eq_none_iff.mpr (hnone r hr))
  · rw [List.filterMap_map, ← h.2, List.map_filterMap]
    exact List.filterMap_congr fun r _ => call?_shift n r

/-- A call is found again among the readings further on. -/
theorem mem_of_forall₂_moves {n : Nat} {rs rs' : List Reading} {c : Call}
    (hmoves : List.Forall₂ (Moves n) rs rs') (hc : .call c ∈ rs) : .call (c.shift n) ∈ rs' := by
  induction hmoves with
  | nil => cases hc
  | cons hmove _ ih =>
    rcases List.mem_cons.mp hc with rfl | hc
    · rw [hmove rfl]
      exact List.mem_cons_self
    · exact List.mem_cons_of_mem _ (ih hc)

theorem mem_calls_iff {rs : List Reading} {calls : List Call} (h : Gives rs calls) {c : Call} :
    c ∈ calls ↔ .call c ∈ rs := by
  rw [← h.2, List.mem_filterMap]
  constructor
  · rintro ⟨r, hr, hcall⟩
    cases r with
    | call found =>
      cases hcall
      exact hr
    | skipped reason => cases hcall
    | underflow fault => cases hcall
  · intro hc
    exact ⟨.call c, hc, rfl⟩

/-! ## Scripts -/

/-- **Extraction of scripts one after the other.** If the calls of two scripts are extracted and the
second one does not begin with a call of the contract, the calls of the whole are those of the first and
then those of the second, as many bytes further on as the first has. If the first is unreadable, the
whole is, by the same fault. And whatever stands before a script and behind it, if anything is extracted
from the whole, then the calls of the script are among it, with the same methods and arguments. -/
theorem extract_append (contract : ScriptHash) {a b : List UInt8} {front code : List Instruction}
    (ha : disassemble a = .ok front) (hb : disassemble b = .ok code) :
    ∃ whole, disassemble (a ++ b) = .ok whole ∧
      (∀ before calls, (extract (some contract) front).result = .ok before →
        (extract (some contract) code).result = .ok calls →
        (∀ i, code.head? = some i → isCallOf contract i = false) →
        (extract (some contract) whole).result
          = .ok (before ++ calls.map (Call.shift a.length))) ∧
      (∀ fault, (extract (some contract) front).result = .error fault →
        (extract (some contract) whole).result = .error fault) ∧
      ∀ c rest, disassemble c = .ok rest →
        ∃ all, disassemble (a ++ b ++ c) = .ok all ∧
          ∀ calls found, (extract (some contract) code).result = .ok calls →
            (extract (some contract) all).result = .ok found →
            ∀ call ∈ calls, call.shift a.length ∈ found := by
  have hresult (code : List Instruction) : (extract (some contract) code).result
      = (Extraction.ofReadings (readings contract [] code)).result := rfl
  have hwhole := (Script.disassemble_append ha b).1 code hb
  obtain ⟨first, behind, hbehind, hmoves, hfirst⟩ :=
    exists_readings_behind contract a.length front.reverse code
  have hreadings : readings contract [] (front ++ code.map (Instruction.shift a.length))
      = readings contract [] front ++ (first ++ behind) := by
    rw [readings_append, List.append_nil, hbehind]
  refine ⟨_, hwhole, ?_, ?_, ?_⟩
  · intro before calls hbefore hcalls hhead
    rw [hresult, result_ofReadings_eq_ok_iff] at hbefore hcalls ⊢
    rw [hreadings, hfirst hhead]
    exact hbefore.append (hcalls.moves hmoves)
  · intro fault hfault
    rw [hresult, result_eq_error_iff, fault_ofReadings] at hfault ⊢
    rw [hreadings, List.findSome?_append, hfault]
    rfl
  · intro c rest hc
    refine ⟨_, (Script.disassemble_append hwhole c).1 rest hc, ?_⟩
    intro calls found hcalls hfound call hcall
    rw [hresult, result_ofReadings_eq_ok_iff] at hcalls hfound
    have hmem := mem_of_forall₂_moves hmoves ((mem_calls_iff hcalls).mp hcall)
    rw [mem_calls_iff hfound, readings_append, hreadings]
    simp only [List.mem_append]
    exact Or.inl (Or.inr (Or.inr hmem))

/-- One call with one argument. -/
def greeting : List Step :=
  [.invoke .zero "hi" [[1]]]

/-- A call with a method and no count, which leads before the start. -/
def countless : List Step :=
  [.pushText "hi", .appCall .zero]

/-- Two greetings are two calls, and the second is found between two others too. What cannot be read
alone cannot be read with a greeting behind it. -/
theorem extract_append_greetings :
    (∃ code, disassemble (assemble greeting ++ assemble greeting) = .ok code ∧
      (extract (some .zero) code).result = .ok [⟨7, "hi", [[1]]⟩, ⟨35, "hi", [[1]]⟩]) ∧
    (∃ code, disassemble (assemble greeting ++ assemble greeting ++ assemble greeting) = .ok code ∧
      ∀ found, (extract (some .zero) code).result = .ok found → ⟨35, "hi", [[1]]⟩ ∈ found) ∧
    ∃ code, disassemble (assemble countless ++ assemble greeting) = .ok code ∧
      (extract (some .zero) code).result = .error ⟨3, 1, 3⟩ := by
  have hgreeting : ∀ s ∈ greeting, s.Buildable ∧ s.NameFits := by decide
  have hcountless : ∀ s ∈ countless, s.Buildable ∧ s.NameFits := by decide
  have hcode := Script.disassemble_assemble (Script.forall_fits hgreeting)
  have hcode' := Script.disassemble_assemble (Script.forall_fits hcountless)
  have hlength : (assemble greeting).length = 28 := by decide +kernel
  have hcalls : (extract (some .zero) (Script.place 0 (greeting.flatMap Step.pieces))).result
      = .ok [⟨7, "hi", [[1]]⟩] := by decide +kernel
  have hfault : (extract (some .zero) (Script.place 0 (countless.flatMap Step.pieces))).result
      = .error ⟨3, 1, 3⟩ := by decide +kernel
  obtain ⟨code, hwhole, happend, -, hbetween⟩ := extract_append .zero hcode hcode
  obtain ⟨all, hall, hfound⟩ := hbetween _ _ hcode
  obtain ⟨code', hwhole', -, hunread, -⟩ := extract_append .zero hcode' hcode
  refine ⟨⟨code, hwhole, ?_⟩, ⟨all, hall, fun found h => ?_⟩, code', hwhole', hunread _ hfault⟩
  · have hhead : ∀ i, (Script.place 0 (greeting.flatMap Step.pieces)).head? = some i →
        isCallOf .zero i = false := by
      intro i hi
      cases hi
      decide +kernel
    rw [happend _ _ hcalls hcalls hhead, hlength]
    rfl
  · have hmem := hfound _ _ hcalls h _ List.mem_cons_self
    rwa [hlength] at hmem

end Registrar.Contract
