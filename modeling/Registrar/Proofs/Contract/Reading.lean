import Mathlib
import Registrar.Contract.Call

/-!
# One call, told by numbers

The reading of a call is a walk along the instructions before it. Here it is told by their numbers: what
has to stand at which distance before the call, and when the distance leads before the start. The
instructions need not come from a script.
-/

namespace Registrar.Contract

open Script (Instruction)

/-! ## What stands before a number -/

section

variable (code : List Instruction)

/-- The text of the instruction right before number `i`. -/
def methodAt? (i : Nat) : Option String :=
  code[i - 1]?.bind Instruction.operandText?

/-- The count that stands three before number `i`. -/
def countAt? (i : Nat) : Option Nat :=
  code[i - 3]?.bind count?

/-- What the instruction of number `i` pushes. -/
def valueAt? (i : Nat) : Option (List UInt8) :=
  code[i]?.bind Instruction.pushValue?

end

section

variable {code : List Instruction} {i : Nat}

/-- The nearest instruction before number `i`. -/
theorem head?_before (hpos : 1 ≤ i) (hi : i ≤ code.length) :
    (code.take i).reverse.head? = code[i - 1]? := by
  rw [List.head?_reverse, List.getLast?_eq_getElem?, List.length_take, Nat.min_eq_left hi,
    List.getElem?_take_of_lt (by omega)]

/-- Three before number `i` stands the count, and before it the arguments. -/
theorem before_count (hi : i + 3 ≤ code.length) :
    (code.take (i + 3)).reverse.drop 2 = code[i] :: (code.take i).reverse := by
  have hlength : (code.take (i + 3)).length - 2 = i + 1 := by
    rw [List.length_take]
    omega
  rw [List.drop_reverse, hlength, List.take_take, Nat.min_eq_left (by omega),
    List.take_succ_eq_append_getElem (by omega), List.reverse_append]
  rfl

/-- The reading of a call whose count would stand before the start. -/
theorem readCall_of_lt (offset : Nat) (hpos : 1 ≤ i) (hlt : i < 3) (hi : i ≤ code.length) :
    readCall offset (code.take i).reverse
      = match methodAt? code i with
        | none => .skipped (.noMethod offset)
        | some _ => .underflow ⟨offset, i, 3⟩ := by
  have hlength : (code.take i).reverse.length = i := by
    rw [List.length_reverse, List.length_take, Nat.min_eq_left hi]
  have hdrop : (code.take i).reverse.drop 2 = [] := List.drop_eq_nil_of_le (by omega)
  have hmethod : (code.take i).reverse.head?.bind Instruction.operandText? = methodAt? code i :=
    congrArg (·.bind Instruction.operandText?) (head?_before hpos hi)
  unfold readCall
  cases hname : methodAt? code i with
  | none => simp only [hmethod, hname]
  | some method => simp only [hmethod, hname, hdrop, hlength]

/-- The reading of a call that has a count, by what stands before it. -/
theorem readCall_of_le (offset : Nat) (hi : i + 3 ≤ code.length) :
    readCall offset (code.take (i + 3)).reverse
      = match methodAt? code (i + 3) with
        | none => .skipped (.noMethod offset)
        | some method =>
          match countAt? code (i + 3) with
          | none => .skipped (.noCount method offset)
          | some count =>
            match arguments 0 count (code.take i).reverse with
            | .ok args => .call ⟨offset, method, args⟩
            | .error (.start argument) => .underflow ⟨offset, i + 3, 4 + argument⟩
            | .error (.notPush argument) => .skipped (.notPush method offset argument) := by
  have hlength : (code.take (i + 3)).reverse.length = i + 3 := by
    rw [List.length_reverse, List.length_take, Nat.min_eq_left hi]
  have hcount : countAt? code (i + 3) = count? code[i] := by
    unfold countAt?
    rw [Nat.add_sub_cancel, List.getElem?_eq_getElem (by omega)]
    rfl
  unfold readCall
  rw [head?_before (by omega) hi, before_count hi, hlength, hcount]
  rfl

end

/-! ## Arguments -/

/-- Arguments are taken just if there are enough instructions and each of them pushes its value. -/
theorem arguments_eq_ok_iff {argument n : Nat} {before : List Instruction}
    {values : List (List UInt8)} :
    arguments argument n before = .ok values ↔
      n ≤ before.length ∧ (before.take n).map Instruction.pushValue? = values.map some := by
  induction n generalizing argument before values with
  | zero =>
    rw [arguments, Except.ok.injEq, List.take_zero, List.map_nil, eq_comm (a := []),
      eq_comm (a := []), List.map_eq_nil_iff]
    exact (and_iff_right (Nat.zero_le _)).symm
  | succ n ih =>
    obtain _ | ⟨i, before⟩ := before
    · exact iff_of_false (fun h => nomatch h) fun h => Nat.not_succ_le_zero n h.1
    · rw [arguments, List.take_succ_cons, List.map_cons, List.length_cons, Nat.succ_le_succ_iff]
      cases hvalue : i.pushValue? with
      | none =>
        refine iff_of_false (fun h => nomatch h) fun h => ?_
        cases values <;> simp at h
      | some value =>
        simp only
        rcases hrest : arguments (argument + 1) n before with gap | rest
        · refine iff_of_false (fun h => nomatch h) fun h => ?_
          obtain _ | ⟨_, values⟩ := values
          · simp at h
          · rw [List.map_cons, List.cons.injEq] at h
            cases hrest.symm.trans (ih.mpr ⟨h.1, h.2.2⟩)
        · obtain ⟨hroom, hvalues⟩ := ih.mp hrest
          rw [Except.ok.injEq, hvalues, ← List.map_cons,
            List.map_inj_right fun _ _ => Option.some.inj]
          exact (and_iff_right hroom).symm

/-- Arguments lead before the start just if there are too few instructions and all of them push. -/
theorem arguments_eq_start_iff {argument n missing : Nat} {before : List Instruction} :
    arguments argument n before = .error (.start missing) ↔
      before.length < n ∧ missing = argument + before.length
        ∧ ∀ i ∈ before, i.pushValue?.isSome := by
  induction n generalizing argument before with
  | zero => exact iff_of_false (fun h => nomatch h) fun h => Nat.not_lt_zero _ h.1
  | succ n ih =>
    obtain _ | ⟨i, before⟩ := before
    · rw [arguments, Except.error.injEq, Gap.start.injEq, eq_comm]
      simp
    · rw [arguments, List.length_cons, Nat.succ_lt_succ_iff, List.forall_mem_cons]
      cases hvalue : i.pushValue? with
      | none => simp
      | some value =>
        have hrec : (arguments (argument + 1) n before = .error (.start missing)) ↔
            before.length < n ∧ missing = argument + (before.length + 1)
              ∧ ((some value).isSome ∧ ∀ i ∈ before, i.pushValue?.isSome) := by
          rw [ih, Nat.add_assoc, Nat.add_comm 1]
          simp
        rw [← hrec]
        simp only
        cases arguments (argument + 1) n before with
        | error gap => simp
        | ok values => simp

/-! ## One site -/

section

variable {code : List Instruction} {i : Nat}

/-- All instructions before number `i` push something just if those of the numbers below it do. -/
theorem forall_before_iff (hi : i ≤ code.length) :
    (∀ x ∈ (code.take i).reverse, x.pushValue?.isSome) ↔ ∀ k < i, (valueAt? code k).isSome := by
  unfold valueAt?
  constructor
  · intro h k hk
    rw [List.getElem?_eq_getElem (by omega)]
    exact h _ (List.mem_reverse.mpr (List.mem_take_iff_getElem.mpr ⟨k, by omega, rfl⟩))
  · intro h x hx
    obtain ⟨k, hk, rfl⟩ := List.mem_take_iff_getElem.mp (List.mem_reverse.mp hx)
    have hvalue := h k (by omega)
    rwa [List.getElem?_eq_getElem (by omega)] at hvalue

/-- What the `n` instructions nearest before number `i` push, by their numbers. -/
theorem map_before_iff {n : Nat} (hn : n ≤ i) (hi : i ≤ code.length)
    {values : List (List UInt8)} :
    ((code.take i).reverse.take n).map Instruction.pushValue? = values.map some ↔
      values.length = n ∧ ∀ k < n, valueAt? code (i - 1 - k) = values[k]? := by
  have hlength : ((code.take i).reverse.take n).length = n := by
    rw [List.length_take, List.length_reverse, List.length_take, Nat.min_eq_left hi,
      Nat.min_eq_left hn]
  have hbefore : ∀ k < n, ((code.take i).reverse.take n)[k]? = code[i - 1 - k]? := by
    intro k hk
    rw [List.getElem?_take_of_lt hk, List.getElem?_reverse (by rw [List.length_take]; omega),
      List.length_take, Nat.min_eq_left hi, List.getElem?_take_of_lt (by omega)]
  constructor
  · intro h
    have hcount : values.length = n := by
      rw [← List.length_map some, ← h, List.length_map, hlength]
    refine ⟨hcount, fun k hk => ?_⟩
    have hat := congrArg (fun l => l[k]?) h
    simp only [List.getElem?_map, hbefore k hk] at hat
    unfold valueAt?
    rw [List.getElem?_eq_getElem (by omega)] at hat ⊢
    rw [List.getElem?_eq_getElem (by omega)] at hat ⊢
    exact Option.some.inj hat
  · rintro ⟨hcount, hvalues⟩
    apply List.ext_getElem?
    intro k
    rw [List.getElem?_map, List.getElem?_map]
    by_cases hk : k < n
    · have hat := hvalues k hk
      unfold valueAt? at hat
      rw [hbefore k hk]
      rw [List.getElem?_eq_getElem (by omega)] at hat ⊢
      rw [List.getElem?_eq_getElem (by omega)] at hat ⊢
      exact congrArg some hat
    · rw [List.getElem?_eq_none (by omega), List.getElem?_eq_none (by omega)]
      rfl

/-- When the reading at number `i` leads before the start, and which fault that is. -/
theorem readCall_eq_underflow_iff (offset : Nat) (hpos : 1 ≤ i) (hi : i ≤ code.length)
    {fault : Underflow} :
    readCall offset (code.take i).reverse = .underflow fault ↔
      ((methodAt? code i).isSome ∧
        (i < 3 ∨ 3 ≤ i ∧ ∃ n, countAt? code i = some n ∧ i - 3 < n ∧
          ∀ k < i - 3, (valueAt? code k).isSome)) ∧
      fault = ⟨offset, i, if i < 3 then 3 else i + 1⟩ := by
  by_cases hlt : i < 3
  · rw [readCall_of_lt offset hpos hlt hi, if_pos hlt]
    cases methodAt? code i with
    | none => simp
    | some method =>
      refine ⟨fun h => ⟨⟨rfl, Or.inl hlt⟩, (Reading.underflow.inj h).symm⟩, ?_⟩
      rintro ⟨-, rfl⟩
      rfl
  · obtain ⟨j, rfl⟩ : ∃ j, i = j + 3 := ⟨i - 3, by omega⟩
    have hlength : (code.take j).reverse.length = j := by
      rw [List.length_reverse, List.length_take, Nat.min_eq_left (by omega)]
    rw [readCall_of_le offset hi, if_neg hlt, Nat.add_sub_cancel,
      ← forall_before_iff (show j ≤ code.length by omega)]
    cases methodAt? code (j + 3) with
    | none => simp
    | some method =>
      simp only
      cases countAt? code (j + 3) with
      | none => simp
      | some n =>
        -- the walk along the arguments ends before the start at the argument of number `j`
        have hstart (missing : Nat) :
            arguments 0 n (code.take j).reverse = .error (.start missing) ↔
              j < n ∧ missing = 0 + j ∧
                ∀ x ∈ (code.take j).reverse, x.pushValue?.isSome := by
          rw [arguments_eq_start_iff, hlength]
        simp only
        rcases hwalk : arguments 0 n (code.take j).reverse with (missing | argument) | args
        · obtain ⟨hroom, rfl, hpush⟩ := (hstart missing).mp hwalk
          simp only [show 4 + (0 + j) = j + 3 + 1 by omega]
          refine ⟨fun h => ⟨⟨rfl, Or.inr ⟨by omega, n, rfl, hroom, hpush⟩⟩,
            (Reading.underflow.inj h).symm⟩, ?_⟩
          rintro ⟨-, rfl⟩
          rfl
        all_goals
          refine iff_of_false (fun h => nomatch h) ?_
          rintro ⟨⟨-, hnear | ⟨-, m, hm, hroom, hpush⟩⟩, -⟩
          · omega
          · cases hm
            cases hwalk.symm.trans ((hstart _).mpr ⟨hroom, rfl, hpush⟩)

/-- When the reading at number `i` is a call, and which. -/
theorem readCall_eq_call_iff (offset : Nat) (hpos : 1 ≤ i) (hi : i ≤ code.length) {c : Call} :
    readCall offset (code.take i).reverse = .call c ↔
      c.offset = offset ∧ methodAt? code i = some c.method ∧ c.args.length + 3 ≤ i ∧
        countAt? code i = some c.args.length ∧
        ∀ k < c.args.length, valueAt? code (i - 4 - k) = c.args[k]? := by
  by_cases hlt : i < 3
  · rw [readCall_of_lt offset hpos hlt hi]
    refine iff_of_false ?_ fun h => by omega
    cases methodAt? code i <;> exact fun h => nomatch h
  · obtain ⟨j, rfl⟩ : ∃ j, i = j + 3 := ⟨i - 3, by omega⟩
    have hlength : (code.take j).reverse.length = j := by
      rw [List.length_reverse, List.length_take, Nat.min_eq_left (by omega)]
    have hplace (k : Nat) : j + 3 - 4 - k = j - 1 - k := by omega
    simp only [hplace, Nat.add_le_add_iff_right]
    rw [readCall_of_le offset hi]
    cases methodAt? code (j + 3) with
    | none => simp
    | some method =>
      simp only
      cases countAt? code (j + 3) with
      | none => simp
      | some n =>
        have hok (args : List (List UInt8)) :
            arguments 0 n (code.take j).reverse = .ok args ↔
              n ≤ j ∧ ((code.take j).reverse.take n).map Instruction.pushValue? = args.map some := by
          rw [arguments_eq_ok_iff, hlength]
        simp only
        constructor
        · intro h
          rcases hwalk : arguments 0 n (code.take j).reverse with (missing | argument) | args
          · rw [hwalk] at h
            cases h
          · rw [hwalk] at h
            cases h
          · rw [hwalk] at h
            cases h
            obtain ⟨hroom, hvalues⟩ := (hok args).mp hwalk
            obtain ⟨rfl, hargs⟩ := (map_before_iff hroom (by omega)).mp hvalues
            exact ⟨rfl, rfl, hroom, rfl, hargs⟩
        · rintro ⟨rfl, hmethod, hroom, hcount, hargs⟩
          cases hmethod
          cases hcount
          rw [(hok c.args).mpr ⟨hroom, (map_before_iff hroom (by omega)).mpr ⟨rfl, hargs⟩⟩]

end

end Registrar.Contract
