import Registrar.Monitor.Loop

/-!
# Tasks that stop a monitor when it runs

A task may ask for the stop of a monitor that does not run yet: it waits until the monitor runs and
stops it then. `Control` counts these tasks. Here they are told apart, and each takes two steps of
its own: it sees that the monitor runs, and later it stops it. Between the two the others go on, so
the monitor may have been stopped by then, and may even have been started again.

Where tasks cooperate, one that sees the monitor run goes on to stop it before anybody else does
anything, and after each request the tasks go on until none of them can.
-/

namespace Registrar.Monitor.Stoppers

/-- How far a task has come. -/
inductive Stage where
  /-- It waits until the monitor runs. -/
  | waiting
  /-- It has seen the monitor run and has yet to stop it. -/
  | alerted
  | done
  deriving DecidableEq, Repr

/-- A control, and how far each task has come, in the order in which the tasks came. -/
structure Moment where
  control : Control := {}
  stages : List Stage := []
  deriving DecidableEq, Repr

/-- What happens at a control. -/
inductive Event where
  /-- Anyone asks for something at once, and it is met or changes nothing. -/
  | request (r : Request) (met : Bool)
  /-- One more task comes and waits. -/
  | arrive
  /-- A task sees that the monitor runs. -/
  | see (task : Nat)
  /-- A task stops the monitor, if it still runs, and is done. -/
  | stop (task : Nat) (met : Bool)
  deriving DecidableEq, Repr

/-- What can happen at a moment. A task sees the monitor run only while it does run. -/
inductive Step : Moment → Event → Moment → Prop where
  | request (s : Moment) (r : Request) :
    Step s (.request r (Loop.meets s.control r)) { s with control := s.control.heed r }
  | arrive (s : Moment) :
    Step s .arrive ⟨s.control.stopWhenRunning, s.stages ++ [.waiting]⟩
  | see (s : Moment) (task : Nat) : s.control.running → s.stages[task]? = some .waiting →
    Step s (.see task)
      ⟨{ s.control with waiting := s.control.waiting - 1 }, s.stages.set task .alerted⟩
  | stop (s : Moment) (task : Nat) : s.stages[task]? = some .alerted →
    Step s (.stop task s.control.stop.1) ⟨s.control.stop.2, s.stages.set task .done⟩

/-- What has happened since a control was made, and where that has led. -/
inductive Happens : List Event → Moment → Prop where
  | new : Happens [] {}
  | step {es : List Event} {s t : Moment} {e : Event} :
    Happens es s → Step s e t → Happens (es ++ [e]) t

/-! ## Cooperation -/

/-- Whether an event is a step of a task that stops the monitor when it runs. -/
def Event.isOfTask : Event → Bool
  | .see _ => true
  | .stop _ _ => true
  | _ => false

/-- One after the other the tasks take both their steps in one, until none of them can. -/
inductive Settles : Moment → List Event → Moment → Prop where
  | rest {s : Moment} : (∀ task t, ¬ Step s (.see task) t) → Settles s [] s
  | turn {s t u v : Moment} {task : Nat} {met : Bool} {es : List Event} :
    Step s (.see task) t → Step t (.stop task met) u → Settles u es v →
    Settles s (.see task :: .stop task met :: es) v

/-- What comes of an event when the tasks cooperate: they go on after it as far as they can. -/
inductive Round : Moment → Event → List Event → Moment → Prop where
  | mk {s t u : Moment} {e : Event} {turns : List Event} : e.isOfTask = false → Step s e t →
    Settles t turns u → Round s e turns u

/-- What has happened since a control was made, if all tasks have cooperated. -/
inductive Cooperates : List Event → Moment → Prop where
  | new : Cooperates [] {}
  | round {es turns : List Event} {s t : Moment} {e : Event} :
    Cooperates es s → Round s e turns t → Cooperates (es ++ e :: turns) t

end Registrar.Monitor.Stoppers
