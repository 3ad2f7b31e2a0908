import Registrar.Monitor.Scan

/-!
# Polling the chain

A poll reads the height of the chain once and processes every block above the height that is
processed, one after the other. The height moves on only after its block is processed, so a poll
that fails leaves the monitor at the last block it finished, and the next poll goes on from there.
-/

namespace Registrar.Monitor

/-- What comes of a poll: the monitor and the chain after it, what was noted, and how many blocks
were processed or why the poll ended early. -/
structure Polled (σ : Type) where
  monitor : Monitor
  chain : σ
  journal : Journal
  result : Except MonitorError Nat

/-- Processes the blocks up to `goal`. -/
def catchUp {σ : Type} (p : Provider σ) (goal : UInt64) (m : Monitor) (chain : σ) : Polled σ :=
  if _h : m.height < goal then
    let next := m.height + 1
    let (reply, chain) := p.block next chain
    let m' := m.heed reply.requests
    match reply.answer with
    | .error cause => ⟨m', chain, [], .error (.provider cause)⟩
    | .ok none => ⟨m', chain, [], .error (.missingBlock next)⟩
    | .ok (some b) =>
      let processed := m'.processBlock b
      let rest := catchUp p goal { processed.monitor with height := next } chain
      ⟨rest.monitor, rest.chain, processed.journal ++ rest.journal, rest.result.map (· + 1)⟩
  else ⟨m, chain, [], .ok 0⟩
termination_by goal.toNat - m.height.toNat
decreasing_by
  have bound := goal.toNat_lt
  have below : m.height.toNat < goal.toNat := UInt64.lt_iff_toNat_lt.mp _h
  have step : (m.height + 1).toNat = m.height.toNat + 1 := by
    rw [UInt64.toNat_add, UInt64.toNat_one, Nat.mod_eq_of_lt (by omega)]
  show goal.toNat - (m.height + 1).toNat < goal.toNat - m.height.toNat
  omega

/-- Reads the height of the chain and processes the blocks up to it. -/
def poll {σ : Type} (p : Provider σ) (m : Monitor) (chain : σ) : Polled σ :=
  let (reply, chain) := p.height chain
  let m := m.heed reply.requests
  match reply.answer with
  | .error cause => ⟨m, chain, [], .error (.provider cause)⟩
  | .ok goal => catchUp p goal m chain

end Registrar.Monitor
