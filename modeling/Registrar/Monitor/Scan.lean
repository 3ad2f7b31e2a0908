import Registrar.Contract.Call
import Registrar.Mailbox.Dispatch
import Registrar.Monitor.Basic

/-!
# Scanning a block

All transactions of a block go into the cache. Then its invocations are scanned in order, and each
call of the contract is applied to the registry before the next one is looked at. A transaction
whose script does not disassemble, or holds an unreadable call, has no effect on the registry at
all.

A scan is a fold over the invocations and over the calls of each, so it can be cut at any point: the
scan of two lists one after the other is the scan of the second from where the first ends.
-/

namespace Registrar

open Chain (Block Transaction)
open Mailbox (Effect Registration Registry)

namespace Monitor

/-- What a scan has come to so far. -/
structure Scan where
  registry : Registry
  stats : Stats
  registrations : List Registration := []
  journal : Journal := []

namespace Scan

/-- Counts what a call came to. -/
def count (stats : Stats) (registration : Option Registration) : Stats :=
  let stats := { stats with callsDecoded := stats.callsDecoded + 1 }
  match registration with
  | none => stats
  | some r =>
    let stats := { stats with registrations := stats.registrations + 1 }
    if r.outcome.isRegistered then
      { stats with registrationsAccepted := stats.registrationsAccepted + 1 }
    else stats

/-- Applies one call. -/
def call (s : Scan) (call : Contract.Call) : Scan :=
  let (effect, registry) := s.registry.dispatch call
  { registry
    stats := count s.stats effect.registration?
    registrations := s.registrations ++ effect.registration?.toList
    journal := s.journal ++ [effect.entry] }

/-- Passes over a transaction that cannot be decoded. -/
def fail (s : Scan) (tx : Transaction) (message : String) : Scan :=
  { s with
    stats := { s.stats with decodeFailures := s.stats.decodeFailures + 1 }
    journal := s.journal ++ [warn ("Skipping transaction " ++ tx.hash ++ ": " ++ message)] }

/-- Scans one transaction for calls of the contract. -/
def transaction (contract : Option ScriptHash) (s : Scan) (tx : Transaction) : Scan :=
  let s := { s with
    stats := { s.stats with transactionsScanned := s.stats.transactionsScanned + 1 } }
  match Script.disassemble tx.script with
  | .error cause => s.fail tx cause.message
  | .ok code =>
    let extraction := Contract.extract contract code
    let s := { s with journal := s.journal ++ extraction.journal }
    match extraction.result with
    | .error cause => s.fail tx cause.message
    | .ok calls => calls.foldl call s

end Scan

end Monitor

namespace Monitor

/-- The hash that calls are matched against. -/
def target (m : Monitor) : Option ScriptHash :=
  m.contract.map Contract.Identity.hash

/-- Scans the transactions of a block with the registry and the counts of a monitor. -/
def scan (m : Monitor) (txs : List Transaction) : Scan :=
  (txs.filter Transaction.isInvocation).foldl (Scan.transaction m.target)
    ⟨m.registry, m.stats, [], []⟩

/-- Puts transactions into the cache, in order. -/
def rememberAll (m : Monitor) (txs : List Transaction) : Monitor :=
  txs.foldl remember m

/-- What comes of processing a block. -/
structure Processed where
  monitor : Monitor
  /-- The attempts to register a mailbox, in the order of the calls. -/
  registrations : List Registration
  journal : Journal

/-- Processes a block: remembers its transactions and scans its invocations. The height up to which
the chain is processed does not change. -/
def processBlock (m : Monitor) (b : Block) : Processed :=
  let s := m.scan b.transactions
  let m := m.rememberAll b.transactions
  { monitor := { m with
      registry := s.registry
      stats := { s.stats with blocksProcessed := s.stats.blocksProcessed + 1 } }
    registrations := s.registrations
    journal := s.journal ++ [info ("Processed block " ++ toString b.index.toNat)] }

end Monitor

end Registrar
