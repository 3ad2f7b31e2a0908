import Mathlib
import Registrar.Proofs.Contract.Deployment
import Registrar.Proofs.Contract.Invocation
import Registrar.Proofs.Monitor.StoredChain

/-!
# From compiled calls to the registry

Scripts are compiled, put into transactions and blocks, served, disassembled, read and applied. All
of these together come to one thing: the requests of the chain that register a mailbox with the
contract are made of the registry, in the order of the chain. Only the order matters, not how the
requests are spread over transactions and blocks.
-/

namespace Registrar.Monitor

open Chain (Block Store Transaction)
open Mailbox (Attempt Registry)
open Script (Step assemble)

/-! ## Requests -/

/-- A request to call a method of a contract. -/
structure Invocation where
  contract : ScriptHash
  method : String
  args : List (List UInt8)
  deriving DecidableEq, Repr

namespace Invocation

/-- The request as a step of a script. -/
def step (r : Invocation) : Step :=
  .invoke r.contract r.method r.args

/-- The attempt that a request makes at the contract `target`, if it makes one. -/
def attempt? (target : ScriptHash) (r : Invocation) : Option Attempt :=
  if r.contract = target then Mailbox.attempt? r.method r.args else none

end Invocation

/-- No attempt is among the calls that are passed over. -/
theorem attempt?_of_passed_over {method : String} {args : List (List UInt8)}
    (h : ¬ (method ≠ "" ∧ args.length ≤ Contract.maxCount)) :
    Mailbox.attempt? method args = none := by
  unfold Mailbox.attempt?
  by_cases hmethod : method = Mailbox.registerMethod
  · have hlong : ¬ args.length ≤ Contract.maxCount := by
      intro hcount
      refine h ⟨?_, hcount⟩
      rw [hmethod]
      decide
    rw [if_pos hmethod]
    obtain _ | ⟨address, _ | ⟨name, _ | ⟨third, rest⟩⟩⟩ := args
    · rfl
    · rfl
    · exact absurd (show 2 ≤ Contract.maxCount by decide) hlong
    · rfl
  · rw [if_neg hmethod]

/-- A request is compiled to a call that makes the attempt of the request. -/
theorem attempts_stepCalls (target : ScriptHash) (offset : Nat) (r : Invocation) :
    (Contract.stepCalls target offset r.step).filterMap (fun c => Mailbox.attempt? c.method c.args)
      = (r.attempt? target).toList := by
  show (if r.contract = target ∧ r.method ≠ "" ∧ r.args.length ≤ Contract.maxCount then _
    else []).filterMap _ = _
  unfold Invocation.attempt?
  by_cases htarget : r.contract = target
  · rw [if_pos htarget]
    by_cases hread : r.method ≠ "" ∧ r.args.length ≤ Contract.maxCount
    · rw [if_pos ⟨htarget, hread⟩, List.filterMap_cons]
      cases Mailbox.attempt? r.method r.args <;> rfl
    · rw [if_neg fun h => hread h.2, attempt?_of_passed_over hread]
      rfl
  · rw [if_neg htarget, if_neg fun h => htarget h.1]
    rfl

/-- Requests are compiled to calls that make the attempts of the requests, in order. -/
theorem attempts_scriptCalls (target : ScriptHash) (offset : Nat) (rs : List Invocation) :
    (Contract.scriptCalls target offset (rs.map Invocation.step)).filterMap
        (fun c => Mailbox.attempt? c.method c.args)
      = rs.filterMap (Invocation.attempt? target) := by
  induction rs generalizing offset with
  | nil => rfl
  | cons r rs ih =>
    rw [List.map_cons, Contract.scriptCalls, List.filterMap_append, attempts_stepCalls, ih,
      List.filterMap_cons]
    cases r.attempt? target <;> rfl

/-! ## Transactions -/

/-- Whether a transaction carries these requests: the script of an invocation is compiled from them,
and any other transaction carries none, whatever its script. -/
def Carries (tx : Transaction) (rs : List Invocation) : Prop :=
  if tx.isInvocation then tx.script = assemble (rs.map Invocation.step) else rs = []

/-- Scanning an invocation makes the attempts of the requests that it was compiled from. -/
theorem clean_invocation {target : ScriptHash} {tx : Transaction} {rs : List Invocation}
    (hscript : tx.script = assemble (rs.map Invocation.step)) (hfits : ∀ r ∈ rs, r.step.Fits)
    (s : Scan) :
    Scan.Clean s (rs.filterMap (Invocation.attempt? target))
      (Scan.transaction (some target) s tx) := by
  have hcode := Script.disassemble_assemble (List.forall_mem_map.mpr hfits)
  have hcalls : (Contract.extract (some target)
      (Script.place 0 ((rs.map Invocation.step).flatMap Step.pieces))).result
        = .ok (Contract.scriptCalls target 0 (rs.map Invocation.step)) :=
    Contract.extract_assemble (List.forall_mem_map.mpr fun r _ => Step.noConfusion)
  rw [← hscript] at hcode
  rw [← attempts_scriptCalls target 0 rs]
  exact Scan.clean_transaction hcode hcalls s

/-- Scanning transactions makes the attempts of the requests that they carry. -/
theorem clean_scan {target : ScriptHash} {txs : List Transaction} {plan : List (List Invocation)}
    (h : List.Forall₂ Carries txs plan) (hfits : ∀ r ∈ plan.flatten, r.step.Fits) (s : Scan) :
    Scan.Clean s (plan.flatten.filterMap (Invocation.attempt? target))
      ((txs.filter Transaction.isInvocation).foldl (Scan.transaction (some target)) s) := by
  induction h generalizing s with
  | nil => exact Scan.Clean.refl s
  | @cons tx rs txs plan hcarries _ ih =>
    rw [List.flatten_cons, List.forall_mem_append] at hfits
    rw [List.flatten_cons, List.filterMap_append, List.filter_cons]
    unfold Carries at hcarries
    -- only an invocation is scanned, and only an invocation carries requests
    by_cases hkind : tx.isInvocation = true
    · rw [if_pos hkind] at hcarries ⊢
      exact (clean_invocation hcarries hfits.1 s).trans (ih hfits.2 _)
    · rw [if_neg hkind] at hcarries ⊢
      rw [hcarries]
      exact ih hfits.2 s

/-! ## Chains -/

/-- What blocks carry: for each of its transactions the requests. -/
def CarriesAll (blocks : List Block) (plan : List (List (List Invocation))) : Prop :=
  List.Forall₂ (fun b txs => List.Forall₂ Carries b.transactions txs) blocks plan

/-- Processing blocks makes the attempts of the requests that they carry. -/
theorem processAll_carried {target : ScriptHash} {blocks : List Block}
    {plan : List (List (List Invocation))} (h : CarriesAll blocks plan)
    (hfits : ∀ r ∈ plan.flatten.flatten, r.step.Fits) {m : Monitor}
    (htarget : m.target = some target) :
    (m.processAll blocks).registry
        = m.registry.enrollAll (plan.flatten.flatten.filterMap (Invocation.attempt? target))
      ∧ (m.processAll blocks).stats.decodeFailures = m.stats.decodeFailures := by
  unfold CarriesAll at h
  induction h generalizing m with
  | nil => exact ⟨rfl, rfl⟩
  | @cons b txs blocks plan hcarries _ ih =>
    rw [List.flatten_cons, List.flatten_append, List.forall_mem_append] at hfits
    rw [List.flatten_cons, List.flatten_append, List.filterMap_append, Registry.enrollAll_append]
    have hscan : Scan.Clean ⟨m.registry, m.stats, [], []⟩
        (txs.flatten.filterMap (Invocation.attempt? target)) (m.scan b.transactions) := by
      unfold scan
      rw [htarget]
      exact clean_scan hcarries hfits.1 _
    obtain ⟨hregistry, hfailures⟩ := ih hfits.2 (m := (m.processBlock b).monitor) (by
      rw [processBlock_monitor]
      exact htarget)
    constructor
    · refine hregistry.trans ?_
      rw [← hscan.registry]
      rfl
    · exact hfailures.trans hscan.decodeFailures

/-! ## The whole way -/

/-- A deployment whose script has instructions makes a monitor for what they create. -/
theorem create_of_code {deployment : Transaction} {code : List Script.Instruction}
    (hcode : Script.disassemble deployment.script = .ok code) (hne : code ≠ []) (config : Config) :
    ∃ journal, create (some deployment) config = .ok
      ({ contract := (Contract.Creation.ofCode code).contract?
         cache := (Chain.Cache.withCapacity config.cacheCapacity).insert deployment
         height := config.startHeight
         config }, journal) := by
  unfold create
  simp only [hcode]
  cases code with
  | nil => exact absurd rfl hne
  | cons i code => exact ⟨_, rfl⟩

/-- A monitor that was made was made so. -/
theorem eq_of_create {deployment : Option Transaction} {config : Config} {m : Monitor}
    {journal : Journal} (h : create deployment config = .ok (m, journal)) :
    ∃ tx code, deployment = some tx ∧ Script.disassemble tx.script = .ok code ∧
      m = { contract := (Contract.Creation.ofCode code).contract?
            cache := (Chain.Cache.withCapacity config.cacheCapacity).insert tx
            height := config.startHeight
            config } := by
  cases deployment with
  | none => cases h
  | some tx =>
    unfold create at h
    rcases hcode : Script.disassemble tx.script with cause | code
    · simp only [hcode] at h
      cases h
    · refine ⟨tx, code, rfl, hcode, ?_⟩
      simp only [hcode] at h
      cases code with
      | nil => cases h
      | cons i code =>
        cases h
        rfl

/-- A deployment that is compiled from bytecode makes a monitor for the contract that has it. -/
theorem create_deploy {bytecode : List UInt8} (hbytecode : bytecode ≠ []) {name : String}
    (hfits : (Step.deploy bytecode name).Fits) {deployment : Transaction}
    (hscript : deployment.script = assemble [.deploy bytecode name]) (config : Config) :
    ∃ m journal, create (some deployment) config = .ok (m, journal)
      ∧ m.target = some (ScriptHash.ofScript bytecode) ∧ m.registry = Registry.empty
      ∧ m.stats = {} ∧ m.height = config.startHeight := by
  have hcode := Script.disassemble_assemble (List.forall_mem_singleton.mpr hfits)
  rw [← hscript, List.flatMap_singleton] at hcode
  have hcreation := Contract.ofCode_deploy (List.forall_mem_nil _) bytecode name []
  rw [List.nil_append, List.append_nil, if_neg hbytecode] at hcreation
  obtain ⟨journal, hcreate⟩ := create_of_code hcode (List.cons_ne_nil _ _) config
  refine ⟨_, journal, hcreate, ?_, rfl, rfl, rfl⟩
  unfold target
  rw [hcreation]
  rfl

/-- A monitor of a compiled deployment processes a whole chain of compiled requests in one poll,
without a failure, and comes to the registry that registers, one after the other, the mailboxes that
are requested of the contract. -/
theorem poll_compiled_chain {bytecode : List UInt8} (hbytecode : bytecode ≠ []) {name : String}
    (hdeploy : (Step.deploy bytecode name).Fits) {deployment : Transaction}
    (hscript : deployment.script = assemble [.deploy bytecode name]) (config : Config)
    {blocks : List Block} (hfollow : Follow config.startHeight blocks)
    {plan : List (List (List Invocation))} (hcarries : CarriesAll blocks plan)
    (hfits : ∀ r ∈ plan.flatten.flatten, r.step.Fits) :
    ∃ m journal, create (some deployment) config = .ok (m, journal) ∧
      (poll storeProvider m (Store.ofBlocks blocks)).result = .ok blocks.length ∧
      (poll storeProvider m (Store.ofBlocks blocks)).monitor.stats.decodeFailures = 0 ∧
      (poll storeProvider m (Store.ofBlocks blocks)).monitor.registry
        = Registry.empty.enrollAll
          (plan.flatten.flatten.filterMap (Invocation.attempt? (ScriptHash.ofScript bytecode))) := by
  obtain ⟨m, journal, hcreate, htarget, hregistry, hstats, hheight⟩ :=
    create_deploy hbytecode hdeploy hscript config
  refine ⟨m, journal, hcreate, ?_⟩
  rw [← hheight] at hfollow
  -- the poll reads the height of the chain and ends there
  have hpoll : poll storeProvider m (Store.ofBlocks blocks)
      = catchUp storeProvider (Store.ofBlocks blocks).height m (Store.ofBlocks blocks) := rfl
  obtain ⟨hresult, hgoal⟩ := catchUp_store m fun n hlow hhigh => hfollow.exists_block hlow hhigh
  rw [← hpoll] at hresult hgoal
  -- so its work is that of processing the blocks
  let serve : UInt64 → Block := fun n => ((Store.ofBlocks blocks).block? n).getD (bareBlock n)
  have hserves : Serves storeProvider serve (Store.ofBlocks blocks) := by
    refine serves_store fun n b hb => ?_
    simp only [serve, hb, Option.getD_some]
  have hblocks : ∀ b ∈ blocks, serve b.index = b := by
    intro b hb
    simp only [serve, Store.block?_ofBlocks hfollow.nodup b hb, Option.getD_some]
  have hwork := (advances_poll m hserves).work
  rw [hfollow.map_heights hgoal hblocks] at hwork
  obtain ⟨hplan, hfailures⟩ := processAll_carried hcarries hfits htarget
  refine ⟨?_, ?_, ?_⟩
  · rw [hresult, hfollow.height_sub]
  · rw [hwork.stats, hfailures, hstats]
  · rw [hwork.registry, hplan, hregistry]

/-- A request to the contract of one instruction, to register a mailbox for the zero hash. -/
def firstRequest : Invocation :=
  ⟨ScriptHash.ofScript [0x51], "registerMailbox", [ScriptHash.zero.bytes, Text.Utf8.encode "alice"]⟩

/-- A block with a script that is not run and with the request. -/
def firstBlock : Block :=
  ⟨1, "", "", ⟨0, 0⟩,
    [⟨"", .miner, [0xFF]⟩, ⟨"", .invocation, assemble [firstRequest.step]⟩]⟩

/-- The request of the first block is made of the registry. -/
theorem poll_compiled_chain_first :
    ∃ m journal,
      create (some ⟨"", .invocation, assemble [.deploy [0x51] "mail"]⟩) {} = .ok (m, journal) ∧
      (poll storeProvider m (Store.ofBlocks [firstBlock])).result = .ok 1 ∧
      (poll storeProvider m (Store.ofBlocks [firstBlock])).monitor.stats.decodeFailures = 0 ∧
      (poll storeProvider m (Store.ofBlocks [firstBlock])).monitor.registry
        = Registry.empty.enrollAll [⟨ScriptHash.zero, Text.Utf8.encode "alice"⟩] := by
  have hone : Script.Build.signedDigits 1 = [1] :=
    Script.Build.signedDigits_of_lt_128 (by decide) (by decide)
  have htwo : Script.Build.signedDigits 2 = [2] :=
    Script.Build.signedDigits_of_lt_128 (by decide) (by decide)
  have hdeploy : (Step.deploy [0x51] "mail").Fits := by
    refine ⟨?_, trivial⟩
    rw [Step.pushed, hone]
    decide
  have hfollow : Follow ({} : Config).startHeight [firstBlock] := rfl
  have hcarries : CarriesAll [firstBlock] [[[], [firstRequest]]] := by
    refine List.Forall₂.cons ?_ List.Forall₂.nil
    exact List.Forall₂.cons rfl (List.Forall₂.cons rfl List.Forall₂.nil)
  have hfits : ∀ r ∈ [[[], [firstRequest]]].flatten.flatten, r.step.Fits := by
    intro r hr
    rw [List.mem_singleton.mp hr]
    refine ⟨?_, trivial⟩
    show ∀ data ∈ firstRequest.args
      ++ [Script.Build.signedDigits 2, Text.Utf8.encode firstRequest.method], data.length < 2 ^ 32
    rw [htwo]
    decide
  have hattempts : [[[], [firstRequest]]].flatten.flatten.filterMap
      (Invocation.attempt? (ScriptHash.ofScript [0x51]))
        = [⟨ScriptHash.zero, Text.Utf8.encode "alice"⟩] := by
    have hattempt : firstRequest.attempt? (ScriptHash.ofScript [0x51])
        = some ⟨ScriptHash.zero, Text.Utf8.encode "alice"⟩ := if_pos rfl
    show [firstRequest].filterMap _ = _
    rw [List.filterMap_cons, hattempt]
    rfl
  rw [← hattempts]
  exact poll_compiled_chain (List.cons_ne_nil _ _) hdeploy rfl {} hfollow hcarries hfits

end Registrar.Monitor
