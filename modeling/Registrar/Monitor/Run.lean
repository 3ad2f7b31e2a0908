import Registrar.Monitor.Poll

/-!
# Running a monitor

A run starts the monitor, unless it runs already, and polls until it reads that the monitor is idle.
Between two polls the tasks that wait to stop the monitor get their turn. A poll that has begun is
finished whatever other tasks ask meanwhile; a poll that fails ends the run, and the monitor is made
idle.

A run need not end. `run` follows it for a number of polls and tells whether it has ended.
-/

namespace Registrar.Monitor

/-- How a run stands. -/
inductive RunResult where
  /-- It ended because the monitor was stopped. -/
  | stopped
  /-- It ended because a poll failed. -/
  | failed (cause : MonitorError)
  /-- It goes on. -/
  | unfinished
  deriving DecidableEq, Repr

/-- What comes of following a run. -/
structure Ran (σ : Type) where
  monitor : Monitor
  chain : σ
  journal : Journal
  result : RunResult

/-- Makes the monitor idle after a failed poll. -/
def halt (m : Monitor) : Monitor :=
  { m with control := m.control.stop.2 }

/-- Gives the tasks that wait to stop the monitor their turn. -/
def pause (m : Monitor) : Monitor :=
  { m with control := m.control.settle }

/-- What is noted when a run ends. -/
def endNote (m : Monitor) (failure : Option MonitorError) : Entry :=
  match failure with
  | none => info ("Monitor stopped at height " ++ toString m.height.toNat)
  | some e => warn ("Monitor halted at height " ++ toString m.height.toNat ++ ": " ++ e.message)

/-- Follows a run that is under way for at most `polls` polls. -/
def runOn {σ : Type} (p : Provider σ) : Nat → Monitor → σ → Ran σ
  | polls, m, chain =>
    if m.control.running then
      match polls with
      | 0 => ⟨m, chain, [], .unfinished⟩
      | polls + 1 =>
        let polled := poll p m chain
        match polled.result with
        | .error cause =>
          let m := polled.monitor.halt
          ⟨m, polled.chain, polled.journal ++ [m.endNote (some cause)], .failed cause⟩
        | .ok _ =>
          let rest := runOn p polls polled.monitor.pause polled.chain
          { rest with journal := polled.journal ++ rest.journal }
    else ⟨m, chain, [m.endNote none], .stopped⟩

/-- What is noted when a run begins. -/
def startJournal (m : Monitor) : Journal :=
  (if m.control.running then [debug "Monitor already running"] else [])
    ++ [info ("Monitor running from height " ++ toString m.height.toNat)]

/-- Starts the monitor and follows the run for at most `polls` polls. -/
def run {σ : Type} (p : Provider σ) (polls : Nat) (m : Monitor) (chain : σ) : Ran σ :=
  let ran := runOn p polls { m with control := m.control.start.2 } chain
  { ran with journal := m.startJournal ++ ran.journal }

end Registrar.Monitor
