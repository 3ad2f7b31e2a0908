import Mathlib
import Registrar.Proofs.Monitor.EndToEnd
import Registrar.Proofs.Monitor.Reachable
import Registrar.Proofs.Script.RoundTrip

/-!
# Transactions without influence

A transaction that is no invocation, that cannot be decoded, or that does not call the contract has
no part in what comes of a block. It may be taken out of the block or put into it anywhere: the
others come to the same, and only the counts of transactions tell that it was there.
-/

namespace Registrar.Monitor

open Chain (Block Transaction)
open Mailbox (Registry)
open Script (assemble)

/-! ## Taking out -/

/-- What remains of a list when some of its elements are taken out, wherever they stand. Read
backwards, what comes of the rest when they are put in. -/
inductive Deletes {α : Type} : List α → List α → List α → Prop where
  | nil : Deletes [] [] []
  | keep (x : α) {deleted whole rest : List α} :
    Deletes deleted whole rest → Deletes deleted (x :: whole) (x :: rest)
  | delete (x : α) {deleted whole rest : List α} :
    Deletes deleted whole rest → Deletes (x :: deleted) (x :: whole) rest

namespace Deletes

variable {α β : Type} {deleted whole rest : List α}

/-- Nothing is taken out. -/
theorem refl (xs : List α) : Deletes [] xs xs := by
  induction xs with
  | nil => exact nil
  | cons x xs ih => exact ih.keep x

theorem filter (p : α → Bool) (h : Deletes deleted whole rest) :
    Deletes (deleted.filter p) (whole.filter p) (rest.filter p) := by
  induction h with
  | nil => exact nil
  | keep x _ ih =>
    by_cases hx : p x = true
    · rw [List.filter_cons_of_pos hx, List.filter_cons_of_pos hx]
      exact ih.keep x
    · rw [List.filter_cons_of_neg hx, List.filter_cons_of_neg hx]
      exact ih
  | delete x _ ih =>
    by_cases hx : p x = true
    · rw [List.filter_cons_of_pos hx, List.filter_cons_of_pos hx]
      exact ih.delete x
    · rw [List.filter_cons_of_neg hx, List.filter_cons_of_neg hx]
      exact ih

/-- What is counted in the whole is counted in the rest or in what was taken out. -/
theorem countP (p : α → Bool) (h : Deletes deleted whole rest) :
    whole.countP p = rest.countP p + deleted.countP p := by
  induction h with
  | nil => rfl
  | keep x _ ih =>
    rw [List.countP_cons, List.countP_cons, ih]
    omega
  | delete x _ ih =>
    rw [List.countP_cons, List.countP_cons, ih]
    omega

/-- Elements that yield nothing can be taken out. -/
theorem flatMap {f : α → List β} (h : Deletes deleted whole rest) (hf : ∀ x ∈ deleted, f x = []) :
    whole.flatMap f = rest.flatMap f := by
  induction h with
  | nil => rfl
  | keep x _ ih => rw [List.flatMap_cons, List.flatMap_cons, ih hf]
  | delete x _ ih =>
    rw [List.forall_mem_cons] at hf
    rw [List.flatMap_cons, hf.1, List.nil_append, ih hf.2]

end Deletes

/-! ## Irrelevant transactions -/

/-- Whether a transaction has no influence on a monitor of this contract: it is no invocation, its
script cannot be decoded, or no instruction of the script after the first one calls the contract. -/
def Irrelevant (contract : Option ScriptHash) (tx : Transaction) : Prop :=
  tx.isInvocation = false ∨ undecodable contract tx = true ∨
    ∃ code, Script.disassemble tx.script = .ok code ∧
      ∀ target, contract = some target → ∀ i ∈ code.tail, Contract.isCallOf target i = false

/-- A script without a call after its first instruction has nothing to extract. -/
theorem extract_eq_of_no_call {contract : Option ScriptHash} {code : List Script.Instruction}
    (h : ∀ target, contract = some target → ∀ i ∈ code.tail,
      Contract.isCallOf target i = false) :
    (Contract.extract contract code).result = .ok [] := by
  cases contract with
  | none => rfl
  | some target =>
    have hreadings : Contract.readings target [] code = [] := by
      cases code with
      | nil => rfl
      | cons i rest =>
        -- the first instruction of a script is never a call
        rw [Contract.readings, if_neg (by simp)]
        exact Contract.readings_eq_nil (h target rfl)
    unfold Contract.extract
    simp only [hreadings]
    rfl

/-- An irrelevant invocation makes no calls. -/
theorem Irrelevant.callsIn_eq_nil {contract : Option ScriptHash} {tx : Transaction}
    (h : Irrelevant contract tx) (hkind : tx.isInvocation = true) : callsIn contract tx = [] := by
  unfold callsIn
  rcases h with hother | hundecodable | ⟨code, hcode, hnone⟩
  · rw [hother] at hkind
    cases hkind
  · rw [Option.isNone_iff_eq_none.mp hundecodable]
    rfl
  · have hdecode : decode? contract tx = some [] := by
      unfold decode?
      simp only [hcode, extract_eq_of_no_call hnone]
    rw [hdecode]
    rfl

/-- Where no contract is known, no transaction makes a call. -/
theorem callsIn_none (tx : Transaction) : callsIn none tx = [] := by
  unfold callsIn decode?
  cases Script.disassemble tx.script with
  | error cause => rfl
  | ok code => rfl

/-! ## Monitors without a contract -/

/-- A new monitor has an empty registry. -/
theorem registry_of_create {deployment : Option Transaction} {config : Config} {m : Monitor}
    {journal : Journal} (h : create deployment config = .ok (m, journal)) :
    m.registry = Registry.empty := by
  obtain ⟨tx, code, _, _, rfl⟩ := eq_of_create h
  rfl

/-- Without a contract, processing a block leaves the registry as it is. -/
theorem registry_processBlock_of_none {m : Monitor} (h : m.contract = none) (b : Block) :
    (m.processBlock b).monitor.registry = m.registry := by
  have htarget : m.target = none := by
    unfold target
    rw [h]
    rfl
  have hmakes := makes_scan m b.transactions
  have hcalls :
      (b.transactions.filter Transaction.isInvocation).flatMap (callsIn m.target) = [] := by
    rw [htarget]
    exact List.flatMap_eq_nil_iff.mpr fun tx _ => callsIn_none tx
  rw [hcalls] at hmakes
  rw [processBlock_monitor]
  exact hmakes.agree.registry

/-- A reachable monitor without a contract has an empty registry. -/
theorem Reachable.registry_eq_empty {m : Monitor} (h : Reachable m) (hnone : m.contract = none) :
    m.registry = Registry.empty := by
  revert hnone
  refine h.invariant (motive := fun m => m.contract = none → m.registry = Registry.empty) ?_ ?_
  · intro deployment config m journal hcreate _
    exact registry_of_create hcreate
  · intro m m' hm hmove hnone
    cases hmove with
    | control => exact hm hnone
    | cache => exact hm hnone
    | block b =>
      rw [contract_processBlock] at hnone
      rw [registry_processBlock_of_none hnone]
      exact hm hnone
    | height => exact hm hnone

/-! ## Blocks that differ in irrelevant transactions -/

/-- Whether the same calls, with the same effect, came of two blocks. -/
structure SameEffect (p q : Processed) : Prop where
  registrations : p.registrations = q.registrations
  registry : p.monitor.registry = q.monitor.registry
  callsDecoded : p.monitor.stats.callsDecoded = q.monitor.stats.callsDecoded
  attempts : p.monitor.stats.registrations = q.monitor.stats.registrations
  accepted : p.monitor.stats.registrationsAccepted = q.monitor.stats.registrationsAccepted

/-- Two blocks have the same transactions, but for irrelevant ones that only one of them has,
anywhere among the others. Then a monitor comes to the same by either, and of the transactions and
the failures it counts just as many more as there are. A monitor without a contract registers
nothing. -/
theorem processBlock_irrelevant {m : Monitor} (hm : Reachable m) {original changed : Block}
    {kept deleted inserted : List Transaction}
    (hdeleted : Deletes deleted original.transactions kept)
    (hinserted : Deletes inserted changed.transactions kept)
    (hirrelevant : ∀ tx ∈ deleted ++ inserted, Irrelevant m.target tx) :
    SameEffect (m.processBlock original) (m.processBlock changed) ∧
    (m.processBlock original).monitor.stats.decodeFailures
        + (inserted.filter Transaction.isInvocation).countP (undecodable m.target)
      = (m.processBlock changed).monitor.stats.decodeFailures
        + (deleted.filter Transaction.isInvocation).countP (undecodable m.target) ∧
    (m.processBlock original).monitor.stats.transactionsScanned
        + inserted.countP Transaction.isInvocation
      = (m.processBlock changed).monitor.stats.transactionsScanned
        + deleted.countP Transaction.isInvocation ∧
    (m.contract = none → ∀ b, (m.processBlock b).monitor.registry = Registry.empty) := by
  rw [List.forall_mem_append] at hirrelevant
  have hcalls {removed txs : List Transaction} (h : Deletes removed txs kept)
      (hremoved : ∀ tx ∈ removed, Irrelevant m.target tx) :
      (txs.filter Transaction.isInvocation).flatMap (callsIn m.target)
        = (kept.filter Transaction.isInvocation).flatMap (callsIn m.target) := by
    apply (h.filter Transaction.isInvocation).flatMap
    intro tx htx
    obtain ⟨hmem, hkind⟩ := List.mem_filter.mp htx
    exact (hremoved tx hmem).callsIn_eq_nil hkind
  -- both scans have the effect of the calls that the kept transactions make
  have horiginal := makes_scan m original.transactions
  have hchanged := makes_scan m changed.transactions
  rw [hcalls hdeleted hirrelevant.1, hdeleted.countP,
    (hdeleted.filter Transaction.isInvocation).countP] at horiginal
  rw [hcalls hinserted hirrelevant.2, hinserted.countP,
    (hinserted.filter Transaction.isInvocation).countP] at hchanged
  have hagree := horiginal.agree.trans hchanged.agree.symm
  refine ⟨?_, ?_, ?_, ?_⟩
  · constructor
    · exact hagree.registrations
    all_goals simp only [processBlock_monitor]
    · exact hagree.registry
    · exact hagree.callsDecoded
    · exact hagree.attempts
    · exact hagree.accepted
  · simp only [processBlock_monitor, horiginal.failures, hchanged.failures]
    omega
  · simp only [processBlock_monitor, horiginal.scanned, hchanged.scanned]
    omega
  · intro hnone b
    rw [registry_processBlock_of_none hnone]
    exact hm.registry_eq_empty hnone

/-- An invocation with a script that does not disassemble. -/
def garbled : Transaction :=
  ⟨"", .invocation, [0xFF]⟩

theorem undecodable_garbled (contract : Option ScriptHash) :
    undecodable contract garbled = true := by
  have hbyte : Script.disassemble [0xFF] = .error (.unknownOpcode 0xFF 0) := by
    decide +kernel
  unfold undecodable decode? garbled
  simp only [hbyte]
  rfl

/-- The deployment of the contract that the request of the first block is made to. -/
def firstDeployment : Transaction :=
  ⟨"", .invocation, assemble [.deploy [0x51] "mail"]⟩

/-- A monitor can be made for the contract of this deployment. -/
theorem create_firstDeployment :
    ∃ m journal, create (some firstDeployment) {} = .ok (m, journal)
      ∧ m.target = some (ScriptHash.ofScript [0x51]) := by
  have hdeploy : (Script.Step.deploy [0x51] "mail").Fits := by
    apply Script.Step.Buildable.fits
    · decide
    · trivial
  have hscript : firstDeployment.script = assemble [.deploy [0x51] "mail"] := rfl
  obtain ⟨m, journal, hcreate, htarget, _⟩ :=
    create_deploy (List.cons_ne_nil _ _) hdeploy hscript {}
  exact ⟨m, journal, hcreate, htarget⟩

/-- The first block without its miner's transaction. -/
def firstRequestOnly : Block :=
  { firstBlock with transactions := firstBlock.transactions.drop 1 }

/-- The first block with the garbled transaction before its own. -/
def firstBlockGarbled : Block :=
  { firstBlock with transactions := garbled :: firstBlock.transactions }

/-- The request of the first block comes to the same whatever stands before it. -/
theorem processBlock_irrelevant_garbled :
    ∃ m, Reachable m ∧ m.target = some (ScriptHash.ofScript [0x51]) ∧
      Deletes [garbled, ⟨"", .miner, [0xFF]⟩] firstBlockGarbled.transactions
        firstRequestOnly.transactions ∧
      (∀ tx ∈ [garbled, ⟨"", .miner, [0xFF]⟩], Irrelevant m.target tx) ∧
      SameEffect (m.processBlock firstBlockGarbled) (m.processBlock firstRequestOnly) ∧
      (m.processBlock firstBlockGarbled).monitor.stats.decodeFailures
        = (m.processBlock firstRequestOnly).monitor.stats.decodeFailures + 1 := by
  have hdeploy : (Script.Step.deploy [0x51] "mail").Fits := by
    apply Script.Step.Buildable.fits
    · decide
    · trivial
  have hscript : firstDeployment.script = assemble [.deploy [0x51] "mail"] := rfl
  obtain ⟨m, journal, hcreate, htarget, _⟩ :=
    create_deploy (List.cons_ne_nil _ _) hdeploy hscript {}
  have hm : Reachable m := Reachable.create hcreate
  have hdeleted : Deletes [garbled, ⟨"", .miner, [0xFF]⟩] firstBlockGarbled.transactions
      firstRequestOnly.transactions :=
    Deletes.delete _ (Deletes.delete _ (Deletes.keep _ Deletes.nil))
  have hirrelevant : ∀ tx ∈ [garbled, ⟨"", .miner, [0xFF]⟩], Irrelevant m.target tx := by
    simp only [List.forall_mem_cons]
    exact ⟨Or.inr (Or.inl (undecodable_garbled _)), Or.inl rfl, List.forall_mem_nil _⟩
  obtain ⟨hsame, hfailures, _⟩ := processBlock_irrelevant hm hdeleted (Deletes.refl _)
    (by rwa [List.append_nil])
  have hcount : ([garbled, ⟨"", .miner, [0xFF]⟩].filter Transaction.isInvocation).countP
      (undecodable m.target) = 1 := by
    show [garbled].countP (undecodable m.target) = 1
    rw [List.countP_singleton, if_pos (undecodable_garbled _)]
  rw [hcount] at hfailures
  exact ⟨m, hm, htarget, hdeleted, hirrelevant, hsame, hfailures⟩

end Registrar.Monitor
