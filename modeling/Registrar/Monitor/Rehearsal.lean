import Registrar.Monitor.Provider

/-!
# A rehearsed chain

A chain in memory that follows a plan: it reports the heights it is told to report, refuses the
questions it is told to refuse, has the monitor stopped at a planned question, and remembers every
question. It serves to try a monitor against a chain that grows, shrinks, or fails.
-/

namespace Registrar.Monitor

open Chain (Store)

/-- A question that was asked of a provider. -/
inductive Question where
  | height
  | block (h : UInt64)
  | transaction (hash : String)
  deriving DecidableEq, Repr

/-- A question in words. -/
def Question.text : Question → String
  | .height => "height"
  | .block h => "block " ++ toString h.toNat
  | .transaction hash => "tx " ++ hash

/-- A chain with a plan. -/
structure Rehearsal where
  store : Store
  /-- The heights to report, one at a question; the last one stays. With none the chain's own height
  is reported. -/
  heights : List UInt64 := []
  /-- The number of the height question that is refused. -/
  refusedHeight : Option Nat := none
  /-- The height at which the block is refused. -/
  refusedBlock : Option UInt64 := none
  /-- The hash for which the transaction is refused. -/
  refusedTransaction : Option String := none
  /-- At which of the next height questions the monitor is stopped. -/
  stopAfter : Option Nat := none
  /-- The height at which the monitor is stopped when its block is asked for. -/
  stopAtBlock : Option UInt64 := none
  /-- How many height questions there were. -/
  heightQuestions : Nat := 0
  /-- The questions, last first. -/
  asked : List Question := []

namespace Rehearsal

/-- The height to report, and the plan after it. -/
def nextHeight (r : Rehearsal) : UInt64 × Rehearsal :=
  match r.heights with
  | [] => (r.store.height, r)
  | [h] => (h, r)
  | h :: rest => (h, { r with heights := rest })

/-- Answers a height question. -/
def answerHeight (r : Rehearsal) : Reply UInt64 × Rehearsal :=
  let number := r.heightQuestions + 1
  let requests := if r.stopAfter = some 1 then [Request.stop] else []
  let r := { r with
    asked := .height :: r.asked
    heightQuestions := number
    stopAfter := r.stopAfter.map (· - 1) }
  if r.refusedHeight = some number then
    (⟨.error (.refused ("height call " ++ toString number ++ " refused")), requests⟩, r)
  else
    let (height, r) := r.nextHeight
    (⟨.ok height, requests⟩, r)

/-- Answers the question for a block. -/
def answerBlock (height : UInt64) (r : Rehearsal) :
    Reply (Option Chain.Block) × Rehearsal :=
  let requests := if r.stopAtBlock = some height then [Request.stop] else []
  let r := { r with asked := .block height :: r.asked }
  if r.refusedBlock = some height then
    (⟨.error (.refused ("block " ++ toString height.toNat ++ " refused")), requests⟩, r)
  else (⟨.ok (r.store.block? height), requests⟩, r)

/-- Answers the question for a transaction. -/
def answerTransaction (hash : String) (r : Rehearsal) :
    Reply (Option Chain.Transaction) × Rehearsal :=
  let r := { r with asked := .transaction hash :: r.asked }
  if r.refusedTransaction = some hash then
    (⟨.error (.refused ("tx " ++ hash ++ " refused")), []⟩, r)
  else (⟨.ok (r.store.transaction? hash), []⟩, r)

/-- Access to a rehearsed chain. -/
def provider : Provider Rehearsal where
  height := answerHeight
  block := answerBlock
  transaction := answerTransaction

end Rehearsal

end Registrar.Monitor
