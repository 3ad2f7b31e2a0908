import Mathlib
import Registrar.Monitor.Loop
import Registrar.Proofs.Monitor.Loop.Execution
import Registrar.Proofs.Monitor.Loop.Following
import Registrar.Proofs.Monitor.Loop.Polls
import Registrar.Proofs.Monitor.Polling

/-!
# Stopping a run

A monitor that is stopped stays idle until a task starts it, and a run that finds it idle asks for
nothing more. A run returns for one of two reasons, a look that finds the monitor idle or a failed
poll, and either leaves the monitor idle.
-/

namespace Registrar.Monitor.Loop

open Chain (Block)

/-! ## Kinds of events -/

def Event.isLook : Event → Bool
  | .look _ => true
  | _ => false

def Event.isFinish : Event → Bool
  | .finish _ => true
  | _ => false

def Event.asksHeight : Event → Bool
  | .askHeight => true
  | _ => false

/-- Whether an idle monitor is made to run, by another task or by the run itself. -/
def Event.starts : Event → Bool
  | .request .start met => met
  | .start met => met
  | _ => false

/-- Why a poll failed that ends here. -/
def Event.pollFailure? : Event → Option MonitorError
  | .pollEnd failure => failure
  | _ => none

/-- Whether the monitor is started before the run looks at it again. -/
def startedBeforeLook (es : List Event) : Bool :=
  (es.takeWhile (!·.isLook)).any Event.starts

/-- How many times the poll in progress has yet to ask for the height of the chain. -/
def Stage.questionsDue : Stage → Nat
  | .polling => 1
  | _ => 0

variable {s t u : Moment} {e : Event} {es : List Event} {failure : Option MonitorError}

/-! ## After a stop -/

/-- Before a run returns there is nothing left but the requests of other tasks. -/
theorem Step.ending (h : Step s e t) (hs : s.stage = .ending failure) (he : e.isFinish = false) :
    e.isRequest ∧ t.stage = .ending failure := by
  cases h with
  | request => exact ⟨rfl, hs⟩
  | finish => cases he
  | _ => cases hs

theorem Executes.ending (h : Executes s es t) (hs : s.stage = .ending failure)
    (hopen : ∀ e ∈ es, e.isFinish = false) : ∀ e ∈ es, e.isRequest := by
  induction h with
  | nil => simp
  | cons hstep _ ih =>
    rw [List.forall_mem_cons] at hopen ⊢
    obtain ⟨hrequest, hnext⟩ := hstep.ending hs hopen.1
    exact ⟨hrequest, ih hnext hopen.2⟩

theorem countP_asksHeight_of_requests (h : ∀ e ∈ es, e.isRequest) :
    es.countP Event.asksHeight = 0 := by
  rw [List.countP_eq_zero]
  intro e he
  have hrequest := h e he
  cases e with
  | request => simp [Event.asksHeight]
  | _ => cases hrequest

/-- To start an idle monitor is to make it run. -/
theorem start_of_idle {c : Control} (h : c.running = false) : c.start.1 = true := by
  show (!c.running) = true
  rw [h]
  rfl

/-- A monitor that is idle and is not started stays idle, and no poll begins without a look. -/
theorem Step.idle (h : Step s e t) (hidle : s.monitor.control.running = false)
    (hlook : e.isLook = false) (hstart : e.starts = false) :
    t.monitor.control.running = false ∧
      (if e.asksHeight then 1 else 0) + t.stage.questionsDue ≤ s.stage.questionsDue := by
  cases h with
  | request m stage r waiting =>
    cases r with
    | start =>
      have hmet : meets m.control .start = false := hstart
      rw [meets, start_of_idle hidle] at hmet
      cases hmet
    | stop => exact ⟨rfl, by simp [Event.asksHeight]⟩
  | start m =>
    have hmet : m.control.start.1 = false := hstart
    rw [start_of_idle hidle] at hmet
    cases hmet
  | look m => cases hlook
  | halt m cause => exact ⟨rfl, Nat.le_refl _⟩
  | process m goal b =>
    refine ⟨?_, Nat.le_refl _⟩
    rw [processBlock_monitor]
    exact hidle
  | _ => exact ⟨hidle, Nat.le_refl _⟩

theorem startedBeforeLook_cons (hlook : e.isLook = false) :
    startedBeforeLook (e :: es) = (e.starts || startedBeforeLook es) := by
  unfold startedBeforeLook
  rw [List.takeWhile_cons_of_pos (by simp [hlook]), List.any_cons]

/-- While the monitor is idle and is not started before the next look, a run asks for the height of
the chain only in the poll in progress, if at all. -/
theorem Executes.countP_asksHeight_le (h : Executes s es t)
    (hidle : s.monitor.control.running = false) (hstart : startedBeforeLook es = false)
    (hopen : ∀ e ∈ es, e.isFinish = false) :
    es.countP Event.asksHeight ≤ s.stage.questionsDue := by
  -- up to the next look the monitor stays idle, and from that look on the run is at its end
  induction h with
  | nil => exact Nat.zero_le _
  | @cons s t u e es hstep hrest ih =>
    rw [List.forall_mem_cons] at hopen
    by_cases hlook : e.isLook = true
    · obtain ⟨running, rfl⟩ : ∃ running, e = .look running := by
        cases e with
        | look running => exact ⟨running, rfl⟩
        | _ => cases hlook
      obtain ⟨-, hrunning, rfl⟩ := step_look hstep
      rw [hidle] at hrunning
      subst hrunning
      rw [List.countP_cons_of_neg (by simp [Event.asksHeight]),
        countP_asksHeight_of_requests (hrest.ending rfl hopen.2)]
      exact Nat.zero_le _
    · rw [Bool.not_eq_true] at hlook
      rw [startedBeforeLook_cons hlook, Bool.or_eq_false_iff] at hstart
      obtain ⟨hstill, hdue⟩ := hstep.idle hidle hlook hstart.1
      have hlater := ih hstill hstart.2 hopen.2
      rw [List.countP_cons]
      omega

/-- A stop leaves the monitor idle and the run where it is. -/
theorem step_stop {met : Bool} (h : Step s (.request .stop met) t) :
    t.monitor.control.running = false ∧ t.stage = s.stage := by
  cases h with
  | request => exact ⟨rfl, rfl⟩

/-! ## The end of a run -/

/-- What a run does last before it returns. -/
def lastAction : Option MonitorError → Event
  | none => .look false
  | some _ => .halt

/-- Whether a run is under way and has not failed. -/
def Stage.isGoing : Stage → Bool
  | .outside => false
  | .halting _ => false
  | .ending _ => false
  | _ => true

/-- How far a run has come, and what has happened since it began. -/
inductive RunSoFar : List Event → Moment → Prop where
  | going {es : List Event} {m : Monitor} {stage : Stage} : stage.isGoing →
    es.filterMap Event.pollFailure? = [] → RunSoFar es ⟨m, stage⟩
  /-- A poll has failed. -/
  | halting {es : List Event} {m : Monitor} {cause : MonitorError} :
    es.filterMap Event.pollFailure? = [cause] → RunSoFar es ⟨m, .halting cause⟩
  /-- The monitor was found idle or made idle, and nothing of the run has happened since. -/
  | ending {before after : List Event} {m : Monitor} {failure : Option MonitorError} :
    (before ++ lastAction failure :: after).filterMap Event.pollFailure? = failure.toList →
    (∀ e ∈ after, e.isRequest) → (m.control.running → .request .start true ∈ after) →
    RunSoFar (before ++ lastAction failure :: after) ⟨m, .ending failure⟩

/-- What a step adds to a run, unless the run returns. -/
theorem RunSoFar.step (h : RunSoFar es t) (hstep : Step t e u) (he : e.isFinish = false) :
    RunSoFar (es ++ [e]) u := by
  cases h with
  | going hgoing hnone =>
    have hadd : e.pollFailure? = none → (es ++ [e]).filterMap Event.pollFailure? = [] := by
      intro hevent
      rw [filterMap_concat_none hevent, hnone]
    -- a look decides whether the run goes on, and a failed poll is the only other way out
    cases hstep with
    | request => exact .going hgoing (hadd rfl)
    | start => cases hgoing
    | look =>
      rename_i m
      cases hrunning : m.control.running with
      | true =>
        rw [hrunning] at hadd
        rw [if_pos rfl]
        exact .going rfl (hadd rfl)
      | false =>
        rw [hrunning] at hadd
        rw [if_neg (by simp)]
        have hend : RunSoFar (es ++ lastAction none :: []) ⟨m, .ending none⟩ :=
          .ending (hadd rfl) (by simp) (by simp [hrunning])
        exact hend
    | fail =>
      refine .halting ?_
      rw [filterMap_concat_some (by rfl), hnone]
      rfl
    | halt => cases hgoing
    | finish => cases hgoing
    | _ => exact .going rfl (hadd rfl)
  | @halting es m cause hcause =>
    -- all that is left is to make the monitor idle, which no request can prevent
    cases hstep with
    | request =>
      refine .halting ?_
      rw [filterMap_concat_none (by rfl), hcause]
    | halt =>
      have hend : RunSoFar (es ++ lastAction (some cause) :: []) ⟨m.halt, .ending (some cause)⟩ := by
        refine .ending ?_ (by simp) ?_
        · rw [lastAction, filterMap_concat_none (by rfl), hcause]
          rfl
        · intro hrunning
          cases hrunning
      exact hend
  | @ending before after m failure hfailure hafter hrunning =>
    cases hstep with
    | request _ _ r waiting =>
      rw [List.append_assoc, List.cons_append]
      refine .ending ?_ ?_ ?_
      · rw [← List.cons_append, ← List.append_assoc, filterMap_concat_none (by rfl), hfailure]
      · rw [List.forall_mem_append, List.forall_mem_singleton]
        exact ⟨hafter, rfl⟩
      · intro hnow
        rw [List.mem_append, List.mem_singleton]
        -- a monitor that runs now ran already, or this is the request that made it run
        cases r with
        | stop => cases hnow
        | start =>
          by_cases hbefore : m.control.running = true
          · exact .inl (hrunning hbefore)
          · rw [Bool.not_eq_true] at hbefore
            rw [meets, start_of_idle hbefore]
            exact .inr rfl
    | finish => cases he

/-- An execution that began outside is outside still or again, or it is in a run that has begun. -/
theorem Executes.underWay {m : Monitor} (h : Executes ⟨m, .outside⟩ es t) :
    t.stage = .outside ∨ ∃ past met during, es = past ++ .start met :: during ∧
      (∀ e ∈ during, e.isFinish = false) ∧ RunSoFar during t := by
  refine h.invariant (motive := fun es t => t.stage = .outside ∨ ∃ past met during,
    es = past ++ .start met :: during ∧ (∀ e ∈ during, e.isFinish = false) ∧ RunSoFar during t)
    (.inl rfl) ?_
  intro es t e u ih hstep
  -- outside, only the beginning of a run leads on; within a run, only its return leads out
  rcases ih with houtside | ⟨past, met, during, rfl, hopen, hsofar⟩
  · cases hstep with
    | request => exact .inl houtside
    | start => exact .inr ⟨es, _, [], rfl, by simp, .going rfl rfl⟩
    | finish => exact .inl rfl
    | _ => cases houtside
  · cases hfinish : e.isFinish with
    | true =>
      left
      cases hstep with
      | finish => rfl
      | _ => cases hfinish
    | false =>
      refine .inr ⟨past, met, during ++ [e], ?_, ?_, hsofar.step hstep hfinish⟩
      · rw [List.append_assoc, List.cons_append]
      · rw [List.forall_mem_append, List.forall_mem_singleton]
        exact ⟨hopen, hfinish⟩

/-- When a run returns, a poll of it has failed for the reason that it gives, or none has. Before that
it has made the monitor idle or found it so, and what happened in between was done by other tasks. -/
theorem Executes.finish {m : Monitor} (h : Executes ⟨m, .outside⟩ (es ++ [.finish failure]) t) :
    ∃ past met during, es = past ++ .start met :: during ∧ (∀ e ∈ during, e.isFinish = false) ∧
      during.filterMap Event.pollFailure? = failure.toList ∧
      ∃ before after, during = before ++ lastAction failure :: after ∧ (∀ e ∈ after, e.isRequest) ∧
        (t.monitor.control.running → .request .start true ∈ after) := by
  obtain ⟨r, hes, hlast⟩ := executes_append_iff.mp h
  rcases hes.underWay with houtside | ⟨past, met, during, rfl, hopen, hsofar⟩
  · cases executes_singleton_iff.mp hlast with
    | finish => cases houtside
  · refine ⟨past, met, during, rfl, hopen, ?_⟩
    cases executes_singleton_iff.mp hlast with
    | finish =>
      cases hsofar with
      | going hgoing => cases hgoing
      | ending hfailure hafter hrunning => exact ⟨hfailure, _, _, rfl, hafter, hrunning⟩

/-! ## Safety -/

/-- To stop a run is safe, whatever the provider answers and whenever other tasks start and stop the
monitor. What `run` does is an execution. A provider that remembers its questions changes nothing in it,
and just what it remembers is asked, answered and requested meanwhile in the execution; all that other
tasks do besides is that the waiting ones, in their turn, stop the monitor. Of every execution this holds:

- A poll that has begun goes on whatever the control is. It ends at the height that it read, or at its
  first failure.
- After a stop, unless the monitor is started before the next look, the run asks for the height of the
  chain again only if the poll in progress has yet to do so.
- A run returns an error if and only if a poll of it has failed, after it has made the monitor idle,
  and returns without one after it has found the monitor idle. The monitor runs then only if another
  task has started it since.
- Over all runs the blocks are processed at the heights that follow the first one, each once. -/
theorem stopping_is_safe :
    (∀ {σ : Type} (p : Provider σ) (polls : Nat) (m : Monitor) (chain : σ),
      (run p.recorded polls m ⟨chain, []⟩).map Recorded.chain = run p polls m chain ∧ ∃ events,
        Executes ⟨m, .outside⟩
          (.start m.control.start.1 :: (events ++ closing (run p polls m chain).result))
          ⟨(run p polls m chain).monitor, stageAfterRun (run p polls m chain).result⟩ ∧
        transcript (.start m.control.start.1 :: (events ++ closing (run p polls m chain).result)) =
          { answered := (run p.recorded polls m ⟨chain, []⟩).chain.answered
            aside := List.replicate
              (m.control.waiting - (run p polls m chain).monitor.control.waiting) .stop }) ∧
    (∀ s poll t, Executes s (.look true :: poll) t → (∀ e ∈ poll, e.isPollEnd = false) →
      (∀ e ∈ poll, e.isRequest ∨ e.inPoll) ∧
      (∃ e u, e.isRequest = false ∧ Step t e u) ∧
      (∀ e u, Step t e u → e.isRequest = false →
        ∀ control, Step (t.withControl control) e (u.withControl control)) ∧
      ∀ failure u, Step t (.pollEnd failure) u →
        PollResult s.monitor.height u.monitor.height poll failure) ∧
    (∀ s after t, Executes s (.request .stop true :: after) t → startedBeforeLook after = false →
      (∀ e ∈ after, e.isFinish = false) →
      after.countP Event.asksHeight ≤ s.stage.questionsDue) ∧
    (∀ m events failure t, Executes ⟨m, .outside⟩ (events ++ [.finish failure]) t →
      ∃ past met during, events = past ++ .start met :: during ∧
        (∀ e ∈ during, e.isFinish = false) ∧
        during.filterMap Event.pollFailure? = failure.toList ∧
        ∃ before after, during = before ++ lastAction failure :: after ∧
          (∀ e ∈ after, e.isRequest) ∧
          (t.monitor.control.running → .request .start true ∈ after)) ∧
    ∀ m events t, Executes ⟨m, .outside⟩ events t → m.height ≤ t.monitor.height ∧
      (events.filterMap Event.processed?).map Prod.fst = heights m.height t.monitor.height ∧
      SameWork t.monitor (m.processAll ((events.filterMap Event.processed?).map Prod.snd)) := by
  refine ⟨?_, ?_, ?_, ?_, ?_⟩
  · intro σ p polls m chain
    obtain ⟨events, turns, hfollows⟩ := follows_run p polls m chain
    have hturns : m.control.waiting - (run p polls m chain).monitor.control.waiting = turns := by
      rw [← hfollows.waiting, Nat.add_sub_cancel_left]
    refine ⟨run_recorded p polls m ⟨chain, []⟩, events, hfollows.executes, ?_⟩
    rw [hturns]
    exact hfollows.told {} rfl
  · intro s poll t h hopen
    obtain ⟨hevents, hsofar, hwithin⟩ := h.pollSoFar hopen
    refine ⟨hevents, hsofar.exists_step, ?_, fun failure u hend => hsofar.result hend⟩
    intro e u hstep hown
    -- what is not a request belongs to the poll or ends it
    apply hstep.withControl
    cases hend : e.isPollEnd with
    | true => exact .inr rfl
    | false =>
      rcases (hsofar.step hwithin hstep hend).1 with hrequest | hpoll
      · rw [hown] at hrequest
        cases hrequest
      · exact .inl hpoll
  · intro s after t h hstart hopen
    obtain ⟨r, hstop, hrest⟩ := executes_cons_iff.mp h
    obtain ⟨hidle, hstage⟩ := step_stop hstop
    rw [← hstage]
    exact hrest.countP_asksHeight_le hidle hstart hopen
  · intro m events failure t h
    exact h.finish
  · intro m events t h
    exact ⟨h.gapless.height_le, h.gapless.heights, h.gapless.work⟩

/-- A poll of a chain of two blocks, up to the question for the first block. -/
def pollStart : List Event :=
  [.askHeight, .hearHeight (.ok 2), .askBlock 1]

/-- The rest of that poll. -/
def pollRest : List Event :=
  [.hearBlock 1 (.ok (some (bareBlock 1))), .process 1 (bareBlock 1), .askBlock 2,
    .hearBlock 2 (.ok (some (bareBlock 2))), .process 2 (bareBlock 2)]

/-- What a run does from there if it is not started again. -/
def runRest : List Event :=
  [.pollEnd none, .wake, .look false]

/-- The newcomer at a height, after so many blocks without a transaction. -/
def newcomerAt (height : UInt64) (running : Bool) : Monitor :=
  { newcomer with
    height
    control := { running }
    stats := { blocksProcessed := height.toNat } }

/-- Stopped while the first of two blocks is awaited, a run finishes the poll and returns. -/
theorem stopping_is_safe_in_poll :
    Executes ⟨newcomer, .outside⟩
      (.start true :: .look true :: (pollStart ++ .request .stop true :: (pollRest ++ runRest)) ++
        [.finish none]) ⟨newcomerAt 2 false, .outside⟩ ∧
    PollResult 0 2 (pollStart ++ .request .stop true :: pollRest) none ∧
    (pollRest ++ runRest).countP Event.asksHeight ≤ 0 ∧
    (∃ past met during,
      .start true :: .look true :: (pollStart ++ .request .stop true :: (pollRest ++ runRest)) =
        past ++ .start met :: during ∧ during.filterMap Event.pollFailure? = [] ∧
        ∃ before after, during = before ++ .look false :: after) ∧
    SameWork (newcomerAt 2 false) (newcomer.processAll [bareBlock 1, bareBlock 2]) := by
  have hstart : Executes ⟨newcomer, .outside⟩ [.start true] ⟨newcomerAt 0 true, .looking⟩ :=
    (Step.start newcomer).executes
  have hfirst : Executes ⟨newcomerAt 0 true, .looking⟩ (.look true :: pollStart)
      ⟨newcomerAt 0 true, .awaitingBlock 2⟩ :=
    .cons (.look _) (.cons (.askHeight _) (.cons (.height _ 2)
      (.cons (.askBlock _ 2 (by decide)) (.nil _))))
  have hstop : Executes ⟨newcomerAt 0 true, .awaitingBlock 2⟩ (.request .stop true :: pollRest)
      ⟨newcomerAt 2 false, .comparing 2⟩ :=
    .cons (.request _ _ .stop 0) (.cons (.block _ 2 (bareBlock 1)) (.cons (.process _ 2 _)
      (.cons (.askBlock _ 2 (by decide)) (.cons (.block _ 2 (bareBlock 2)) (.cons (.process _ 2 _)
        (.nil _))))))
  have hend : Step ⟨newcomerAt 2 false, .comparing 2⟩ (.pollEnd none)
      ⟨newcomerAt 2 false, .pausing⟩ :=
    .caughtUp _ 2 (by decide)
  have hrest : Executes ⟨newcomerAt 2 false, .comparing 2⟩ runRest
      ⟨newcomerAt 2 false, .ending none⟩ :=
    .cons hend (.cons (.wake _) (.cons (.look _) (.nil _)))
  have hrun := (hstart.append (hfirst.append (hstop.append hrest))).append
    (Step.finish (newcomerAt 2 false) none).executes
  obtain ⟨-, hpolls, hstops, hreturns, hheights⟩ := stopping_is_safe
  refine ⟨hrun, ?_, ?_, ?_, ?_⟩
  · exact (hpolls _ _ _ (hfirst.append hstop) (by decide)).2.2.2 none _ hend
  · exact hstops _ _ _ (hstop.append hrest) (by decide) (by decide)
  · obtain ⟨past, met, during, hpast, -, hnone, before, after, hlast, -⟩ := hreturns _ _ _ _ hrun
    exact ⟨past, met, during, hpast, hnone, before, after, hlast⟩
  · exact (hheights _ _ _ hrun).2.2

end Registrar.Monitor.Loop
