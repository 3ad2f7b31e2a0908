import Registrar.Chain.Cache
import Registrar.Contract.Identity
import Registrar.Mailbox.Registry
import Registrar.Monitor.Provider
import Registrar.Script.Disassembly
import Registrar.ScriptHash.Address

/-!
# Monitors

A monitor follows a chain for one contract. It knows the contract from the transaction that deployed
it, keeps the registry that the contract's calls build up, the height up to which blocks are
processed, a cache of transactions, and counts of its work. A deployment that creates no contract
makes a monitor for which no call matches.
-/

namespace Registrar

open Chain (Block Cache Transaction)

namespace Monitor

/-- Why a monitor fails. -/
inductive MonitorError where
  /-- There is no deployment transaction. -/
  | deploymentMissing
  /-- The provider knows no transaction with this hash. -/
  | deploymentNotFound (hash : String)
  /-- The script of the deployment transaction does not disassemble. -/
  | deploymentUnreadable (hash : String) (cause : Script.DisassemblyError)
  /-- The deployment transaction has no script. -/
  | deploymentEmpty (hash : String)
  /-- The chain is higher than this height but has no block there. -/
  | missingBlock (height : UInt64)
  /-- The provider failed. -/
  | provider (cause : ProviderError)
  deriving DecidableEq, Repr

/-- What is wrong with the deployment, where that is the fault. -/
def MonitorError.invalidInput? : MonitorError → Option String
  | .deploymentMissing => some "deployment transaction is missing"
  | .deploymentNotFound hash => some ("deployment transaction " ++ hash ++ " not found")
  | .deploymentUnreadable hash cause =>
    some ("deployment transaction " ++ hash ++ " does not disassemble: " ++ cause.message)
  | .deploymentEmpty hash => some ("deployment transaction " ++ hash ++ " has an empty script")
  | .missingBlock _ => none
  | .provider _ => none

/-- The message of a failed monitor. -/
def MonitorError.message (e : MonitorError) : String :=
  match e with
  | .missingBlock height => "Block " ++ toString height.toNat ++ " is missing from the chain"
  | .provider cause => "Provider error: " ++ cause.message
  | _ => "Invalid input: " ++ e.invalidInput?.getD ""

/-- What a monitor is told to do. -/
structure Config where
  /-- The pause between two looks at the chain, in milliseconds. -/
  pollInterval : Nat := 5000
  /-- The height up to which blocks count as processed. -/
  startHeight : UInt64 := 0
  /-- How many transactions the cache has room for. -/
  cacheCapacity : Nat := Cache.defaultCapacity
  deriving DecidableEq, Repr

/-- Counts of a monitor's work. They are taken below `2 ^ 64`: a word of that size holds each of them, and
what is proved of a count is meant of one that has not come to that number. -/
structure Stats where
  blocksProcessed : Nat := 0
  transactionsScanned : Nat := 0
  decodeFailures : Nat := 0
  callsDecoded : Nat := 0
  registrations : Nat := 0
  registrationsAccepted : Nat := 0
  deriving DecidableEq, Repr

/-- The counts as JSON. -/
def Stats.json (s : Stats) : Text.Json :=
  .object [("blocks_processed", .number s.blocksProcessed),
    ("transactions_scanned", .number s.transactionsScanned),
    ("decode_failures", .number s.decodeFailures), ("calls_decoded", .number s.callsDecoded),
    ("registrations", .number s.registrations),
    ("registrations_accepted", .number s.registrationsAccepted)]

end Monitor

/-- A monitor of a contract. -/
structure Monitor where
  /-- The contract that is followed, if the deployment created one. -/
  contract : Option Contract.Identity
  registry : Mailbox.Registry := {}
  cache : Chain.Cache
  /-- The height of the last processed block. -/
  height : UInt64
  config : Monitor.Config
  control : Monitor.Control := {}
  stats : Monitor.Stats := {}

namespace Monitor

/-- What is noted when a monitor is made, after what is noted about the creation. -/
def deploymentJournal (deployment : Transaction) : Option Contract.Identity → Journal
  | some c => [info ("Monitoring contract " ++ c.hash.text ++ " (" ++ c.hash.address ++ ")")]
  | none =>
    [warn ("Deployment transaction " ++ deployment.hash
      ++ " creates no contract; no calls will match")]

/-- Makes a monitor for what a transaction deploys. The transaction goes into the cache. -/
def create (deployment : Option Transaction) (config : Config) :
    Except MonitorError (Monitor × Journal) :=
  match deployment with
  | none => .error .deploymentMissing
  | some tx =>
    match Script.disassemble tx.script with
    | .error cause => .error (.deploymentUnreadable tx.hash cause)
    | .ok [] => .error (.deploymentEmpty tx.hash)
    | .ok code =>
      let creation := Contract.Creation.ofCode code
      .ok ({ contract := creation.contract?
             cache := (Cache.withCapacity config.cacheCapacity).insert tx
             height := config.startHeight
             config },
        creation.journal ++ deploymentJournal tx creation.contract?)

/-- Makes a monitor for what the transaction with this hash deploys. -/
def connect {σ : Type} (p : Provider σ) (chain : σ) (hash : String) (config : Config) :
    Except MonitorError (Monitor × Journal) × σ :=
  let (reply, chain) := p.transaction hash chain
  match reply.answer with
  | .error cause => (.error (.provider cause), chain)
  | .ok none => (.error (.deploymentNotFound hash), chain)
  | .ok (some tx) => (create (some tx) config, chain)

/-- Meets the requests that other tasks made of the control. -/
def heed (m : Monitor) (requests : List Request) : Monitor :=
  { m with control := requests.foldl Control.heed m.control }

/-- Puts a transaction into the cache. -/
def remember (m : Monitor) (tx : Transaction) : Monitor :=
  { m with cache := m.cache.insert tx }

/-- Looks a transaction up, in the cache first and then at the provider. What the provider answers
goes into the cache. -/
def transaction {σ : Type} (p : Provider σ) (m : Monitor) (chain : σ) (hash : String) :
    Except MonitorError (Option Transaction) × Monitor × σ :=
  match m.cache.get hash with
  | (some tx, cache) => (.ok (some tx), { m with cache }, chain)
  | (none, cache) =>
    let (reply, chain) := p.transaction hash chain
    let m := { m with cache }.heed reply.requests
    match reply.answer with
    | .error cause => (.error (.provider cause), m, chain)
    | .ok none => (.ok none, m, chain)
    | .ok (some tx) => (.ok (some tx), m.remember tx, chain)

end Monitor

end Registrar
