import Mathlib
import Registrar.Proofs.Contract.Invocation
import Registrar.Proofs.Contract.LookUp

/-!
# What is extracted from any instructions

For instructions that need not come from a script it is said where a call is expected, which of these
sites lead before the start, and which of them are calls. The first site that leads before the start is
the fault of the whole; without one, the calls are those whose parts are all there.
-/

namespace Registrar.Contract

open Script (Instruction)

/-! ## Sites -/

section

variable (contract : ScriptHash) (code : List Instruction)

/-- Whether the instruction of number `i` calls the contract, and is not the first one. -/
structure IsSite (i : Nat) : Prop where
  pos : 1 ≤ i
  calls : ∃ site, code[i]? = some site ∧ site.opcode = .appCall
    ∧ site.operand = some contract.bytes

/-- Whether the site of number `i` has a name and reads before the start: it stands too near to the
start to have a count, or it counts more arguments than there are instructions for them, all of which
push something. -/
def PointsOutside (i : Nat) : Prop :=
  IsSite contract code i ∧ (methodAt? code i).isSome ∧
    (i < 3 ∨ 3 ≤ i ∧ ∃ n, countAt? code i = some n ∧ i - 3 < n ∧
      ∀ k < i - 3, (valueAt? code k).isSome)

/-- Whether a fault is that of the site of number `i`. -/
structure IsFaultAt (i : Nat) (fault : Underflow) : Prop where
  offset : code[i]?.map Instruction.offset = some fault.offset
  index : fault.index = i
  back : fault.back = if i < 3 then 3 else i + 1

/-- Whether a call is what stands at the site of number `i`: its arguments stand before the count, the
first one nearest to it. -/
structure IsCallAt (i : Nat) (c : Call) : Prop where
  site : IsSite contract code i
  offset : code[i]?.map Instruction.offset = some c.offset
  method : methodAt? code i = some c.method
  room : c.args.length + 3 ≤ i
  count : countAt? code i = some c.args.length
  args : ∀ k < c.args.length, valueAt? code (i - 4 - k) = c.args[k]?

end

section

variable {contract : ScriptHash} {code : List Instruction}

theorem isCallOf_iff {site : Instruction} :
    isCallOf contract site = true ↔
      site.opcode = .appCall ∧ site.operand = some contract.bytes := by
  unfold isCallOf
  rw [Bool.and_eq_true, decide_eq_true_iff, decide_eq_true_iff]

theorem IsSite.lt {i : Nat} (h : IsSite contract code i) : i < code.length := by
  obtain ⟨site, hat, -⟩ := h.calls
  exact (List.getElem?_eq_some_iff.mp hat).1

theorem readingAt?_eq_some_iff {i : Nat} {r : Reading} :
    readingAt? contract code i = some r ↔
      IsSite contract code i ∧
        ∃ offset, code[i]?.map Instruction.offset = some offset ∧
          readCall offset (code.take i).reverse = r := by
  unfold readingAt?
  constructor
  · intro h
    obtain ⟨site, hsite, hread⟩ := Option.bind_eq_some_iff.mp h
    split_ifs at hread with hcall
    refine ⟨⟨hcall.1, site, hsite, isCallOf_iff.mp hcall.2⟩, site.offset, ?_, Option.some.inj hread⟩
    rw [hsite]
    rfl
  · rintro ⟨⟨hpos, site, hsite, hcall⟩, offset, hoffset, rfl⟩
    rw [hsite] at hoffset ⊢
    cases hoffset
    exact if_pos ⟨hpos, isCallOf_iff.mpr hcall⟩

/-- A site leads before the start just if its reading is that fault. -/
theorem readingAt?_eq_underflow_iff {i : Nat} {fault : Underflow} :
    readingAt? contract code i = some (.underflow fault) ↔
      PointsOutside contract code i ∧ IsFaultAt code i fault := by
  rw [readingAt?_eq_some_iff]
  constructor
  · rintro ⟨hsite, offset, hoffset, hread⟩
    obtain ⟨⟨hname, houtside⟩, rfl⟩ := (readCall_eq_underflow_iff offset hsite.pos hsite.lt.le).mp hread
    exact ⟨⟨hsite, hname, houtside⟩, hoffset, rfl, rfl⟩
  · rintro ⟨⟨hsite, houtside⟩, hfault⟩
    refine ⟨hsite, fault.offset, hfault.offset, ?_⟩
    refine (readCall_eq_underflow_iff fault.offset hsite.pos hsite.lt.le).mpr ⟨houtside, ?_⟩
    rw [← hfault.back, ← hfault.index]

/-- A site is a call just if its reading is this call. -/
theorem readingAt?_eq_call_iff {i : Nat} {c : Call} :
    readingAt? contract code i = some (.call c) ↔ IsCallAt contract code i c := by
  rw [readingAt?_eq_some_iff]
  constructor
  · rintro ⟨hsite, offset, hoffset, hread⟩
    obtain ⟨rfl, hmethod, hroom, hcount, hargs⟩ :=
      (readCall_eq_call_iff offset hsite.pos hsite.lt.le).mp hread
    exact ⟨hsite, hoffset, hmethod, hroom, hcount, hargs⟩
  · intro h
    exact ⟨h.site, c.offset, h.offset,
      (readCall_eq_call_iff c.offset h.site.pos h.site.lt.le).mpr
        ⟨rfl, h.method, h.room, h.count, h.args⟩⟩

end

/-! ## The extraction as a whole -/

/-- The fault that a reading is. -/
def Reading.fault? : Reading → Option Underflow
  | .underflow fault => some fault
  | _ => none

/-- The fault of readings is the first fault among them. -/
theorem fault_ofReadings (rs : List Reading) :
    (Extraction.ofReadings rs).fault = rs.findSome? Reading.fault? := by
  induction rs with
  | nil => rfl
  | cons r rs ih =>
    cases r with
    | call c => exact ih
    | skipped reason => exact ih
    | underflow fault => rfl

theorem result_eq_error_iff {e : Extraction} {fault : Underflow} :
    e.result = .error fault ↔ e.fault = some fault := by
  unfold Extraction.result
  cases e.fault <;> simp

theorem fault_eq_none_of_result {e : Extraction} {calls : List Call} (h : e.result = .ok calls) :
    e.fault = none := by
  rw [Option.eq_none_iff_forall_ne_some]
  intro fault hfault
  rw [result_eq_error_iff.mpr hfault] at h
  cases h

/-- What is found first in ascending order. -/
theorem findSome?_range_eq_some_iff {α : Type} {n : Nat} {f : Nat → Option α} {a : α} :
    (List.range n).findSome? f = some a ↔ ∃ i < n, f i = some a ∧ ∀ j < i, f j = none := by
  induction n with
  | zero => simp
  | succ n ih =>
    rw [List.range_succ, List.findSome?_append, Option.or_eq_some_iff, ih,
      List.findSome?_eq_none_iff]
    simp only [List.mem_range, List.findSome?_singleton]
    constructor
    · rintro (⟨i, hi, hfound⟩ | ⟨hnone, hlast⟩)
      · exact ⟨i, by omega, hfound⟩
      · exact ⟨n, Nat.lt_succ_self n, hlast, hnone⟩
    · rintro ⟨i, hi, hfound, hbefore⟩
      by_cases hlast : i = n
      · rw [hlast] at hfound hbefore
        exact Or.inr ⟨hbefore, hfound⟩
      · exact Or.inl ⟨i, by omega, hfound, hbefore⟩

/-- Numbers that have a value, with their values. -/
theorem forall₂_filter_isSome {α β : Type} (f : α → Option β) (l : List α) :
    List.Forall₂ (fun a b => f a = some b) (l.filter fun a => (f a).isSome) (l.filterMap f) := by
  induction l with
  | nil => exact List.Forall₂.nil
  | cons a l ih =>
    rw [List.filter_cons, List.filterMap_cons]
    cases hvalue : f a with
    | none => exact ih
    | some b => exact List.Forall₂.cons hvalue ih

/-- Values are those of the numbers that they belong to. -/
theorem filterMap_of_forall₂ {α β : Type} {f : α → Option β} {l : List α} {values : List β}
    (h : List.Forall₂ (fun a b => f a = some b) l values) : l.filterMap f = values := by
  induction h with
  | nil => rfl
  | cons hvalue _ ih => rw [List.filterMap_cons, hvalue, ih]

section

variable {contract : ScriptHash} {code : List Instruction}

/-- The fault of the site of number `i`. -/
def faultAt? (contract : ScriptHash) (code : List Instruction) (i : Nat) : Option Underflow :=
  (readingAt? contract code i).bind Reading.fault?

/-- The call at the site of number `i`. -/
def callAt? (contract : ScriptHash) (code : List Instruction) (i : Nat) : Option Call :=
  (readingAt? contract code i).bind Reading.call?

theorem faultAt?_eq_some_iff {i : Nat} {fault : Underflow} :
    faultAt? contract code i = some fault ↔
      PointsOutside contract code i ∧ IsFaultAt code i fault := by
  rw [← readingAt?_eq_underflow_iff]
  unfold faultAt?
  rcases readingAt? contract code i with _ | _ | _ | _ <;> simp [Reading.fault?]

theorem callAt?_eq_some_iff {i : Nat} {c : Call} :
    callAt? contract code i = some c ↔ IsCallAt contract code i c := by
  rw [← readingAt?_eq_call_iff]
  unfold callAt?
  rcases readingAt? contract code i with _ | _ | _ | _ <;> simp [Reading.call?]

/-- A site that leads before the start is a fault. -/
theorem faultAt?_eq_none_iff {i : Nat} :
    faultAt? contract code i = none ↔ ¬ PointsOutside contract code i := by
  constructor
  · intro h houtside
    have hlt : i < code.length := houtside.1.lt
    have hfault : IsFaultAt code i ⟨code[i].offset, i, if i < 3 then 3 else i + 1⟩ := by
      refine ⟨?_, rfl, rfl⟩
      rw [List.getElem?_eq_getElem hlt]
      rfl
    rw [faultAt?_eq_some_iff.mpr ⟨houtside, hfault⟩] at h
    cases h
  · intro h
    exact Option.eq_none_iff_forall_ne_some.mpr fun fault hfault =>
      h (faultAt?_eq_some_iff.mp hfault).1

/-- The fault of an extraction is the first one at its numbers. -/
theorem fault_extract (contract : ScriptHash) (code : List Instruction) :
    (extract (some contract) code).fault
      = (List.range code.length).findSome? (faultAt? contract code) := by
  show (Extraction.ofReadings (readings contract [] code)).fault = _
  rw [fault_ofReadings, readings_nil_eq, ← List.head?_filterMap, List.filterMap_filterMap,
    List.head?_filterMap]
  rfl

/-- The extraction fails just if some site leads before the start, with the fault of the first that
does. -/
theorem extract_eq_error_iff {fault : Underflow} :
    (extract (some contract) code).result = .error fault ↔
      ∃ i, PointsOutside contract code i ∧ IsFaultAt code i fault ∧
        ∀ j < i, ¬ PointsOutside contract code j := by
  rw [result_eq_error_iff, fault_extract, findSome?_range_eq_some_iff]
  simp only [faultAt?_eq_some_iff, faultAt?_eq_none_iff]
  constructor
  · rintro ⟨i, -, ⟨houtside, hfault⟩, hbefore⟩
    exact ⟨i, houtside, hfault, hbefore⟩
  · rintro ⟨i, houtside, hfault, hbefore⟩
    exact ⟨i, houtside.1.lt, ⟨houtside, hfault⟩, hbefore⟩

/-- Where no site leads before the start, the calls of all numbers are extracted. -/
theorem extract_eq_ok_of_forall (h : ∀ i, ¬ PointsOutside contract code i) :
    (extract (some contract) code).result
      = .ok ((List.range code.length).filterMap (callAt? contract code)) := by
  have hgives : Gives (readings contract [] code)
      ((List.range code.length).filterMap (callAt? contract code)) := by
    rw [readings_nil_eq]
    refine ⟨?_, List.filterMap_filterMap⟩
    rintro r hr fault rfl
    obtain ⟨i, -, hread⟩ := List.mem_filterMap.mp hr
    exact h i (readingAt?_eq_underflow_iff.mp hread).1
  exact hgives.result

/-- The extraction succeeds only if no site leads before the start. -/
theorem not_pointsOutside_of_extract {calls : List Call}
    (h : (extract (some contract) code).result = .ok calls) (i : Nat) :
    ¬ PointsOutside contract code i := by
  intro houtside
  have hnone := fault_eq_none_of_result h
  rw [fault_extract, List.findSome?_eq_none_iff] at hnone
  exact faultAt?_eq_none_iff.mp (hnone i (List.mem_range.mpr houtside.1.lt)) houtside

/-- The numbers of the sites that are calls. -/
def callSites (contract : ScriptHash) (code : List Instruction) : List Nat :=
  (List.range code.length).filter fun i => (callAt? contract code i).isSome

theorem pairwise_callSites : (callSites contract code).Pairwise (· < ·) :=
  List.pairwise_lt_range.filter _

theorem mem_callSites {i : Nat} : i ∈ callSites contract code ↔ ∃ c, IsCallAt contract code i c := by
  unfold callSites
  simp only [← callAt?_eq_some_iff, ← Option.isSome_iff_exists]
  rw [List.mem_filter, List.mem_range, and_iff_right_iff_imp]
  intro hcall
  obtain ⟨c, hc⟩ := Option.isSome_iff_exists.mp hcall
  exact (callAt?_eq_some_iff.mp hc).site.lt

/-- Calls are those of all numbers just if they stand at these sites, one after the other. -/
theorem forall₂_callSites_iff {calls : List Call} :
    List.Forall₂ (IsCallAt contract code) (callSites contract code) calls ↔
      (List.range code.length).filterMap (callAt? contract code) = calls := by
  have hall := forall₂_filter_isSome (callAt? contract code) (List.range code.length)
  constructor
  · intro h
    have hvalues : List.Forall₂ (fun i c => callAt? contract code i = some c)
        (callSites contract code) calls := h.imp fun _ _ => callAt?_eq_some_iff.mpr
    rw [← filterMap_of_forall₂ hvalues]
    exact (filterMap_of_forall₂ hall).symm
  · rintro rfl
    exact hall.imp fun _ _ => callAt?_eq_some_iff.mp

/-- **What is extracted from any instructions.** All that is looked up by number is there. The
extraction fails just if some site with a name leads before the start, with the fault of the first one.
Else it gives one call for each site that has a name, a count and as many arguments as are counted, in
ascending order. -/
theorem extract_exact (contract : ScriptHash) (code : List Instruction) :
    fetchExtraction contract code = some (extract (some contract) code) ∧
    (∀ fault, (extract (some contract) code).result = .error fault ↔
      ∃ i, PointsOutside contract code i ∧ IsFaultAt code i fault ∧
        ∀ j < i, ¬ PointsOutside contract code j) ∧
    ∀ calls, (extract (some contract) code).result = .ok calls ↔
      (∀ i, ¬ PointsOutside contract code i) ∧
        ∃ sites : List Nat, sites.Pairwise (· < ·) ∧
          (∀ i, i ∈ sites ↔ ∃ c, IsCallAt contract code i c) ∧
          List.Forall₂ (IsCallAt contract code) sites calls := by
  refine ⟨fetchExtraction_eq contract code, fun fault => extract_eq_error_iff, fun calls => ?_⟩
  constructor
  · intro h
    have hnone := not_pointsOutside_of_extract h
    rw [extract_eq_ok_of_forall hnone] at h
    exact ⟨hnone, callSites contract code, pairwise_callSites, fun i => mem_callSites,
      forall₂_callSites_iff.mpr (Except.ok.inj h)⟩
  · rintro ⟨hnone, sites, hsorted, hsites, hcalls⟩
    have hsame : sites = callSites contract code :=
      hsorted.eq_of_mem_iff pairwise_callSites fun i => (hsites i).trans mem_callSites.symm
    rw [hsame] at hcalls
    rw [extract_eq_ok_of_forall hnone, forall₂_callSites_iff.mp hcalls]

end

end Registrar.Contract
