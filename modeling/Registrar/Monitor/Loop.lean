import Registrar.Monitor.Run

/-!
# A run among other tasks

`run` follows a run whose provider tells, with each answer, what other tasks asked meanwhile. Here the
same loop is taken apart into single actions, so that other tasks may start and stop the monitor
between any two of them: before the first look, while an answer is awaited, while a block is processed,
between two polls, or after a failure. A provider may answer anything.

The monitor's part of the state is changed by the functions of a poll and of a control. A run ends
where it began, outside, and another one may follow.
-/

namespace Registrar.Monitor.Loop

open Chain (Block)

/-- Where a run stands between two of its actions. -/
inductive Stage where
  /-- No run is under way. -/
  | outside
  /-- It is about to look whether the monitor runs. -/
  | looking
  /-- A poll has begun. -/
  | polling
  /-- The height of the chain is asked for. -/
  | awaitingHeight
  /-- The blocks up to `goal` are to be processed. -/
  | comparing (goal : UInt64)
  /-- The next block is asked for. -/
  | awaitingBlock (goal : UInt64)
  /-- The next block is there. -/
  | processing (goal : UInt64) (b : Block)
  /-- The poll cannot go on. -/
  | failing (cause : MonitorError)
  /-- A poll has failed, and the monitor is to be made idle. -/
  | halting (cause : MonitorError)
  /-- A poll has come to its end, and the next one is not due yet. -/
  | pausing
  /-- The run is over, and all that is left is to say so. -/
  | ending (failure : Option MonitorError)
  deriving DecidableEq, Repr

/-- A monitor at a stage of a run. -/
structure Moment where
  monitor : Monitor
  stage : Stage

/-- What happens. All but the first are actions of the run itself. -/
inductive Event where
  /-- Another task asks for something, and it is met or changes nothing. -/
  | request (r : Request) (met : Bool)
  /-- The run begins by starting the monitor, unless it runs already. -/
  | start (met : Bool)
  /-- The run looks whether the monitor runs. -/
  | look (running : Bool)
  | askHeight
  | hearHeight (answer : Except ProviderError UInt64)
  | askBlock (height : UInt64)
  | hearBlock (height : UInt64) (answer : Except ProviderError (Option Block))
  /-- A block is processed, and its height counts as processed from then on. -/
  | process (height : UInt64) (b : Block)
  /-- A poll ends, and if it has failed for this reason. -/
  | pollEnd (failure : Option MonitorError)
  /-- The run makes the monitor idle. -/
  | halt
  /-- The next poll is due, or the state of the control has changed. -/
  | wake
  /-- The run returns. -/
  | finish (failure : Option MonitorError)
  deriving Repr

/-- Whether a request is met, as the task that makes it is told. -/
def meets (c : Control) : Request → Bool
  | .start => c.start.1
  | .stop => c.stop.1

/-- The single actions of a run, and what other tasks do. How many tasks wait to stop the monitor is
left open: one that has waited stops it by a request like any other. -/
inductive Step : Moment → Event → Moment → Prop where
  | request (m : Monitor) (stage : Stage) (r : Request) (waiting : Nat) :
    Step ⟨m, stage⟩ (.request r (meets m.control r))
      ⟨{ m with control := { m.control.heed r with waiting } }, stage⟩
  | start (m : Monitor) :
    Step ⟨m, .outside⟩ (.start m.control.start.1)
      ⟨{ m with control := m.control.start.2 }, .looking⟩
  | look (m : Monitor) :
    Step ⟨m, .looking⟩ (.look m.control.running)
      ⟨m, if m.control.running then .polling else .ending none⟩
  | askHeight (m : Monitor) : Step ⟨m, .polling⟩ .askHeight ⟨m, .awaitingHeight⟩
  | height (m : Monitor) (goal : UInt64) :
    Step ⟨m, .awaitingHeight⟩ (.hearHeight (.ok goal)) ⟨m, .comparing goal⟩
  | heightRefused (m : Monitor) (cause : ProviderError) :
    Step ⟨m, .awaitingHeight⟩ (.hearHeight (.error cause)) ⟨m, .failing (.provider cause)⟩
  | askBlock (m : Monitor) (goal : UInt64) : m.height < goal →
    Step ⟨m, .comparing goal⟩ (.askBlock (m.height + 1)) ⟨m, .awaitingBlock goal⟩
  | block (m : Monitor) (goal : UInt64) (b : Block) :
    Step ⟨m, .awaitingBlock goal⟩ (.hearBlock (m.height + 1) (.ok (some b)))
      ⟨m, .processing goal b⟩
  | blockMissing (m : Monitor) (goal : UInt64) :
    Step ⟨m, .awaitingBlock goal⟩ (.hearBlock (m.height + 1) (.ok none))
      ⟨m, .failing (.missingBlock (m.height + 1))⟩
  | blockRefused (m : Monitor) (goal : UInt64) (cause : ProviderError) :
    Step ⟨m, .awaitingBlock goal⟩ (.hearBlock (m.height + 1) (.error cause))
      ⟨m, .failing (.provider cause)⟩
  | process (m : Monitor) (goal : UInt64) (b : Block) :
    Step ⟨m, .processing goal b⟩ (.process (m.height + 1) b)
      ⟨{ (m.processBlock b).monitor with height := m.height + 1 }, .comparing goal⟩
  | caughtUp (m : Monitor) (goal : UInt64) : ¬ m.height < goal →
    Step ⟨m, .comparing goal⟩ (.pollEnd none) ⟨m, .pausing⟩
  | fail (m : Monitor) (cause : MonitorError) :
    Step ⟨m, .failing cause⟩ (.pollEnd (some cause)) ⟨m, .halting cause⟩
  | halt (m : Monitor) (cause : MonitorError) :
    Step ⟨m, .halting cause⟩ .halt ⟨m.halt, .ending (some cause)⟩
  | wake (m : Monitor) : Step ⟨m, .pausing⟩ .wake ⟨m, .looking⟩
  | finish (m : Monitor) (failure : Option MonitorError) :
    Step ⟨m, .ending failure⟩ (.finish failure) ⟨m, .outside⟩

/-- What happens from one moment to another. -/
inductive Executes : Moment → List Event → Moment → Prop where
  | nil (s : Moment) : Executes s [] s
  | cons {s t u : Moment} {e : Event} {es : List Event} :
    Step s e t → Executes t es u → Executes s (e :: es) u

end Registrar.Monitor.Loop
