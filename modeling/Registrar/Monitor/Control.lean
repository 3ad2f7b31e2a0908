import Registrar.Text.Json.Value

/-!
# Starting and stopping a monitor

A monitor runs or is idle. Any task may start it or stop it at any time; a request that changes
nothing is refused. A task may also wait for the monitor to run and stop it then: with several tasks
waiting, each start is undone by one of them, and the others wait for the next.

`start` and `stop` are single transitions. `settle` is what happens when the waiting tasks get their
turn.
-/

namespace Registrar.Monitor

/-- Whether a monitor runs, and how many tasks wait to stop it. -/
structure Control where
  running : Bool := false
  waiting : Nat := 0
  deriving DecidableEq, Repr

/-- What a task may ask of a control. -/
inductive Request where
  | start
  | stop
  deriving DecidableEq, Repr

namespace Control

/-- Makes an idle monitor run. Tells whether it was idle. -/
def start (c : Control) : Bool × Control :=
  (!c.running, { c with running := true })

/-- Makes a running monitor idle. Tells whether it ran. -/
def stop (c : Control) : Bool × Control :=
  (c.running, { c with running := false })

/-- Meets a request. -/
def heed (c : Control) : Request → Control
  | .start => c.start.2
  | .stop => c.stop.2

/-- One more task waits to stop the monitor when it runs. -/
def stopWhenRunning (c : Control) : Control :=
  { c with waiting := c.waiting + 1 }

/-- Gives the waiting tasks their turn: if the monitor runs, one of them stops it and is done. -/
def settle (c : Control) : Control :=
  if c.running ∧ 0 < c.waiting then { running := false, waiting := c.waiting - 1 } else c

/-- The name of the state in exchanged data. -/
def stateName (c : Control) : String :=
  if c.running then "Running" else "Idle"

/-- The state as JSON. -/
def stateJson (c : Control) : Text.Json :=
  .text c.stateName

end Control

end Registrar.Monitor
