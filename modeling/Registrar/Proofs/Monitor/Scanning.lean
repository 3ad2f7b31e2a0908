import Mathlib
import Registrar.Proofs.Mailbox.Attempt
import Registrar.Proofs.Monitor.Contribution

/-!
# What a scan does to the registry

A scan touches the registry by the attempts that it finds and by nothing else, and it counts a
failure only for a transaction that cannot be decoded. Stretches of a scan that decode compose: the
attempts of both are made in order, and there is still no failure.
-/

namespace Registrar.Monitor

open Chain (Block Transaction)
open Mailbox (Attempt Registry)

namespace Scan

/-- A stretch of a scan, from `s` to `s'`, in which everything decodes and just these attempts are
made. -/
structure Clean (s : Scan) (attempts : List Attempt) (s' : Scan) : Prop where
  registry : s'.registry = s.registry.enrollAll attempts
  decodeFailures : s'.stats.decodeFailures = s.stats.decodeFailures

namespace Clean

theorem refl (s : Scan) : Clean s [] s :=
  ⟨rfl, rfl⟩

theorem trans {s s' s'' : Scan} {as bs : List Attempt} (h : Clean s as s') (h' : Clean s' bs s'') :
    Clean s (as ++ bs) s'' := by
  constructor
  · rw [h'.registry, h.registry, Registry.enrollAll_append]
  · rw [h'.decodeFailures, h.decodeFailures]

end Clean

/-- A call makes the attempt that it is. -/
theorem clean_call (s : Scan) (c : Contract.Call) :
    Clean s (Mailbox.attempt? c.method c.args).toList (s.call c) where
  registry := (Mailbox.dispatch_spec s.registry c).2
  decodeFailures := (Makes.calls s [c]).failures

/-- Calls make the attempts that they are, in order. -/
theorem clean_calls (s : Scan) (calls : List Contract.Call) :
    Clean s (calls.filterMap fun c => Mailbox.attempt? c.method c.args) (calls.foldl call s) := by
  induction calls generalizing s with
  | nil => exact Clean.refl s
  | cons c calls ih =>
    have hboth := (clean_call s c).trans (ih (s.call c))
    rw [List.filterMap_cons]
    cases hattempt : Mailbox.attempt? c.method c.args <;> simpa [hattempt] using hboth

/-- A transaction whose calls can be extracted makes the attempts that they are. -/
theorem clean_transaction {contract : Option ScriptHash} {tx : Transaction}
    {code : List Script.Instruction} {calls : List Contract.Call}
    (hcode : Script.disassemble tx.script = .ok code)
    (hcalls : (Contract.extract contract code).result = .ok calls) (s : Scan) :
    Clean s (calls.filterMap fun c => Mailbox.attempt? c.method c.args)
      (transaction contract s tx) := by
  have hdecode : decode? contract tx = some calls := by
    unfold decode?
    simp only [hcode, hcalls]
  have hmakes := Makes.transaction contract s tx
  rw [callsIn, undecodable, hdecode] at hmakes
  have hattempts := clean_calls s calls
  exact ⟨hmakes.agree.registry.trans hattempts.registry, hmakes.failures⟩

end Scan

/-! ## Blocks -/

/-- Remembering transactions is a matter of the cache alone. -/
theorem rememberAll_eq (m : Monitor) (txs : List Transaction) :
    m.rememberAll txs = { m with cache := txs.foldl Chain.Cache.insert m.cache } := by
  unfold rememberAll
  induction txs generalizing m with
  | nil => rfl
  | cons tx txs ih =>
    rw [List.foldl_cons, ih]
    rfl

/-- What processing a block leaves of a monitor, part by part. -/
theorem processBlock_monitor (m : Monitor) (b : Block) :
    (m.processBlock b).monitor = { m with
      registry := (m.scan b.transactions).registry
      cache := b.transactions.foldl Chain.Cache.insert m.cache
      stats := { (m.scan b.transactions).stats with
        blocksProcessed := (m.scan b.transactions).stats.blocksProcessed + 1 } } := by
  unfold processBlock
  rw [rememberAll_eq]

@[simp] theorem contract_processBlock (m : Monitor) (b : Block) :
    (m.processBlock b).monitor.contract = m.contract := by
  rw [processBlock_monitor]

@[simp] theorem height_processBlock (m : Monitor) (b : Block) :
    (m.processBlock b).monitor.height = m.height := by
  rw [processBlock_monitor]

theorem target_processBlock (m : Monitor) (b : Block) :
    (m.processBlock b).monitor.target = m.target := by
  unfold target
  rw [contract_processBlock]

theorem cache_processBlock (m : Monitor) (b : Block) :
    (m.processBlock b).monitor.cache = b.transactions.foldl Chain.Cache.insert m.cache := by
  rw [processBlock_monitor]

/-- The contract, the height, the configuration and the control are no concern of a block. -/
theorem eq_processBlock (m : Monitor) (b : Block) :
    (m.processBlock b).monitor = { m with
      registry := (m.processBlock b).monitor.registry
      cache := (m.processBlock b).monitor.cache
      stats := (m.processBlock b).monitor.stats } := by
  rw [processBlock_monitor]

end Registrar.Monitor
