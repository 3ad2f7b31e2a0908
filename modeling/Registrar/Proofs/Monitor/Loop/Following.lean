import Mathlib
import Registrar.Proofs.Monitor.Loop.Execution
import Registrar.Proofs.Monitor.Recording
import Registrar.Proofs.Monitor.Scanning

/-!
# What a followed run executes

A run that is followed by `run` is an execution: the requests that come with an answer are made while it
is awaited, and the tasks that wait to stop the monitor do so between two polls. The questions with
their answers and requests can be read off the events, and what is read is what the provider remembers.
So whatever holds of all executions holds of every run, and nothing is put into it that the provider and
the waiting tasks have not done.
-/

namespace Registrar.Monitor.Loop

open Chain (Block)

/-! ## Reading the events -/

/-- What the events of a run tell of its questions and of other tasks. -/
structure Transcript where
  /-- The questions that were answered. -/
  answered : List Answered := []
  /-- If an answer is awaited, what other tasks have asked of the control since the question. -/
  awaited : Option (List Request) := none
  /-- What other tasks have asked of the control while no answer was awaited. -/
  aside : List Request := []

namespace Transcript

/-- A question is asked. -/
def ask (t : Transcript) : Transcript :=
  { t with awaited := some [] }

/-- Another task asks for something. -/
def request (t : Transcript) (r : Request) : Transcript :=
  match t.awaited with
  | some requests => { t with awaited := some (requests ++ [r]) }
  | none => { t with aside := t.aside ++ [r] }

/-- The answer is heard. -/
def hear (t : Transcript) (a : List Request → Answered) : Transcript :=
  { t with answered := t.answered ++ [a (t.awaited.getD [])], awaited := none }

/-- What one more event tells. -/
def add (t : Transcript) : Event → Transcript
  | .askHeight => t.ask
  | .askBlock _ => t.ask
  | .request r _ => t.request r
  | .hearHeight answer => t.hear (.height answer)
  | .hearBlock h answer => t.hear (.block h answer)
  | _ => t

/-- More questions were answered, and as many of the waiting tasks have stopped the monitor. -/
def further (t : Transcript) (answered : List Answered) (turns : Nat) : Transcript :=
  { t with
    answered := t.answered ++ answered
    aside := t.aside ++ List.replicate turns .stop }

theorem further_further (t : Transcript) (answered answered' : List Answered) (turns turns' : Nat) :
    (t.further answered turns).further answered' turns'
      = t.further (answered ++ answered') (turns + turns') := by
  simp only [further, List.append_assoc, List.replicate_append_replicate]

@[simp] theorem further_nil (t : Transcript) : t.further [] 0 = t := by
  simp [further]

end Transcript

/-- What events tell, one after the other. -/
def transcript (es : List Event) : Transcript :=
  es.foldl Transcript.add {}

/-! ## Stretches of a followed run -/

variable {s t u : Moment} {e : Event} {es fs : List Event} {answered answered' : List Answered}
  {turns turns' : Nat}

/-- A stretch of an execution in which these questions were answered and as many of the waiting tasks
have stopped the monitor. No answer is awaited at its end if none is at its start. -/
structure Follows (s : Moment) (es : List Event) (answered : List Answered) (turns : Nat) (t : Moment) :
    Prop where
  executes : Executes s es t
  told : ∀ before : Transcript, before.awaited = none →
    es.foldl Transcript.add before = before.further answered turns
  waiting : t.monitor.control.waiting + turns = s.monitor.control.waiting

namespace Follows

theorem nil (s : Moment) : Follows s [] [] 0 s where
  executes := .nil s
  told := fun before _ => before.further_nil.symm
  waiting := rfl

theorem trans (h : Follows s es answered turns t) (h' : Follows t fs answered' turns' u) :
    Follows s (es ++ fs) (answered ++ answered') (turns + turns') u where
  executes := h.executes.append h'.executes
  told := by
    intro before hnone
    have hstill : (before.further answered turns).awaited = none := hnone
    rw [List.foldl_append, h.told before hnone, h'.told _ hstill, Transcript.further_further]
  waiting := by
    rw [← h.waiting, ← h'.waiting]
    omega

end Follows

/-- An action that neither asks nor hears anything and that leaves the waiting tasks alone. -/
theorem Step.follows (h : Step s e t) (hquiet : ∀ before : Transcript, before.add e = before)
    (hwaiting : t.monitor.control.waiting = s.monitor.control.waiting) : Follows s [e] [] 0 t where
  executes := h.executes
  told := by
    intro before _
    simp [hquiet]
  waiting := hwaiting

theorem waiting_heed (m : Monitor) (requests : List Request) :
    (m.heed requests).control.waiting = m.control.waiting := by
  induction requests generalizing m with
  | nil => rfl
  | cons r requests ih =>
    have hfirst : (m.heed [r]).control.waiting = m.control.waiting := by
      cases r <;> rfl
    exact (ih (m.heed [r])).trans hfirst

/-- Requests may be made at any stage. While an answer is awaited they belong to it. -/
theorem executes_heed (m : Monitor) (stage : Stage) (requests : List Request) :
    ∃ events, Executes ⟨m, stage⟩ events ⟨m.heed requests, stage⟩ ∧
      ∀ (before : Transcript) (earlier : List Request), before.awaited = some earlier →
        events.foldl Transcript.add before
          = { before with awaited := some (earlier ++ requests) } := by
  induction requests generalizing m with
  | nil =>
    refine ⟨[], .nil _, ?_⟩
    intro before earlier hawaited
    simp [← hawaited]
  | cons r requests ih =>
    obtain ⟨events, hrest, htold⟩ := ih (m.heed [r])
    refine ⟨_, .cons (Step.request m stage r (m.control.heed r).waiting) hrest, ?_⟩
    intro before earlier hawaited
    have hadd : before.add (.request r (meets m.control r))
        = { before with awaited := some (earlier ++ [r]) } := by
      simp [Transcript.add, Transcript.request, hawaited]
    rw [List.foldl_cons, hadd, htold _ _ rfl, List.append_assoc]
    rfl

/-- A question, the requests that are made while its answer is awaited, and the answer. -/
theorem follows_exchange {m : Monitor} {stage awaiting next : Stage} {ask hear : Event}
    {a : List Request → Answered} (requests : List Request)
    (hask : Step ⟨m, stage⟩ ask ⟨m, awaiting⟩)
    (hhear : Step ⟨m.heed requests, awaiting⟩ hear ⟨m.heed requests, next⟩)
    (hasked : ∀ before : Transcript, before.add ask = before.ask)
    (hheard : ∀ before : Transcript, before.add hear = before.hear a) :
    ∃ events, Follows ⟨m, stage⟩ events [a requests] 0 ⟨m.heed requests, next⟩ := by
  obtain ⟨events, hheed, htold⟩ := executes_heed m awaiting requests
  refine ⟨[ask] ++ events ++ [hear], (hask.executes.append hheed).append hhear.executes, ?_,
    waiting_heed m requests⟩
  intro before hnone
  have hmade := htold before.ask [] rfl
  simp only [List.foldl_append, List.foldl_cons, List.foldl_nil, hasked, hheard, hmade]
  simp [Transcript.ask, Transcript.hear, Transcript.further, hnone]

/-- A waiting task that gets its turn stops the monitor. -/
theorem follows_pause (m : Monitor) (stage : Stage) :
    ∃ events turns, Follows ⟨m, stage⟩ events [] turns ⟨m.pause, stage⟩ := by
  unfold Monitor.pause Control.settle
  by_cases hturn : m.control.running ∧ 0 < m.control.waiting
  · rw [if_pos hturn]
    have hstop := Step.request m stage .stop (m.control.waiting - 1)
    refine ⟨_, 1, hstop.executes, ?_, ?_⟩
    · intro before hnone
      simp [Transcript.add, Transcript.request, Transcript.further, hnone]
    · show m.control.waiting - 1 + 1 = m.control.waiting
      omega
  · rw [if_neg hturn]
    exact ⟨[], 0, .nil _⟩

/-! ## A poll -/

/-- Why a poll failed, if it did. -/
def failure? {α : Type} : Except MonitorError α → Option MonitorError
  | .ok _ => none
  | .error cause => some cause

theorem failure?_map {α β : Type} (f : α → β) (r : Except MonitorError α) :
    failure? (r.map f) = failure? r := by
  cases r <;> rfl

/-- Where a run stands after a poll. -/
def stageAfterPoll : Option MonitorError → Stage
  | none => .pausing
  | some cause => .halting cause

/-- A question that cannot be answered ends the poll. -/
theorem follows_fail (m : Monitor) (cause : MonitorError) :
    Follows ⟨m, .failing cause⟩ [.pollEnd (some cause)] [] 0
      ⟨m, stageAfterPoll (some cause)⟩ :=
  (Step.fail m cause).follows (fun _ => rfl) rfl

variable {σ : Type} (p : Provider σ)

theorem follows_catchUp (goal : UInt64) (m : Monitor) (r : Recorded σ) :
    let polled := catchUp p.recorded goal m r
    ∃ events answered, polled.chain.answered = r.answered ++ answered ∧
      Follows ⟨m, .comparing goal⟩ (events ++ [.pollEnd (failure? polled.result)]) answered 0
        ⟨polled.monitor, stageAfterPoll (failure? polled.result)⟩ := by
  -- along the loop: each question is asked, requests are met while it is awaited, and then the
  -- answer is heard
  fun_induction catchUp p.recorded goal m r with
  | case1 m r hlt next reply r' hreply m' cause hanswer =>
    obtain ⟨rfl, rfl⟩ := Prod.mk.inj hreply
    obtain ⟨events, hasked⟩ := follows_exchange (a := .block next (.error cause))
      (p.block next r.chain).1.requests (Step.askBlock m goal hlt) (Step.blockRefused m' goal cause)
      (fun _ => rfl) (fun _ => rfl)
    refine ⟨events, _, ?_, hasked.trans (follows_fail m' _)⟩
    rw [← hanswer]
    rfl
  | case2 m r hlt next reply r' hreply m' hanswer =>
    obtain ⟨rfl, rfl⟩ := Prod.mk.inj hreply
    obtain ⟨events, hasked⟩ := follows_exchange (a := .block next (.ok none))
      (p.block next r.chain).1.requests (Step.askBlock m goal hlt) (Step.blockMissing m' goal)
      (fun _ => rfl) (fun _ => rfl)
    refine ⟨events, _, ?_, hasked.trans (follows_fail m' _)⟩
    rw [← hanswer]
    rfl
  | case3 m r hlt next reply r' hreply m' b hanswer processed rest ih =>
    obtain ⟨rfl, rfl⟩ := Prod.mk.inj hreply
    obtain ⟨events, hasked⟩ := follows_exchange (a := .block next (.ok (some b)))
      (p.block next r.chain).1.requests (Step.askBlock m goal hlt) (Step.block m' goal b)
      (fun _ => rfl) (fun _ => rfl)
    have hprocess : Follows ⟨m', .processing goal b⟩ [.process next b] [] 0
        ⟨{ processed.monitor with height := next }, .comparing goal⟩ := by
      apply (Step.process m' goal b).follows (fun _ => rfl)
      rw [processBlock_monitor]
    obtain ⟨later, answered, hanswered, hrest⟩ := ih
    have hall := (hasked.trans hprocess).trans hrest
    refine ⟨events ++ [.process next b] ++ later,
      .block next (.ok (some b)) (p.block next r.chain).1.requests :: answered, ?_, ?_⟩
    · rw [hanswered, ← hanswer]
      exact List.append_assoc _ _ _
    · simp only [failure?_map]
      rw [List.append_assoc]
      exact hall
  | case4 m r hlt =>
    refine ⟨[], [], (List.append_nil _).symm, ?_⟩
    exact (Step.caughtUp m goal hlt).follows (fun _ => rfl) rfl

theorem follows_poll (m : Monitor) (r : Recorded σ) :
    let polled := poll p.recorded m r
    ∃ events answered, polled.chain.answered = r.answered ++ answered ∧
      Follows ⟨m, .polling⟩ (events ++ [.pollEnd (failure? polled.result)]) answered 0
        ⟨polled.monitor, stageAfterPoll (failure? polled.result)⟩ := by
  let requests := (p.recorded.height r).1.requests
  cases hanswer : (p.recorded.height r).1.answer with
  | error cause =>
    obtain ⟨events, hasked⟩ := follows_exchange (a := .height (.error cause)) requests
      (Step.askHeight m) (Step.heightRefused (m.heed requests) cause) (fun _ => rfl) (fun _ => rfl)
    rw [poll_of_refused hanswer]
    refine ⟨events, [.height (.error cause) requests], ?_, hasked.trans (follows_fail _ _)⟩
    rw [← hanswer]
    rfl
  | ok goal =>
    obtain ⟨events, hasked⟩ := follows_exchange (a := .height (.ok goal)) requests
      (Step.askHeight m) (Step.height (m.heed requests) goal) (fun _ => rfl) (fun _ => rfl)
    obtain ⟨later, answered, hanswered, hrest⟩ :=
      follows_catchUp p goal (m.heed requests) (p.recorded.height r).2
    rw [poll_of_height hanswer]
    refine ⟨events ++ later, .height (.ok goal) requests :: answered, ?_, ?_⟩
    · rw [hanswered, ← hanswer]
      exact List.append_assoc _ _ _
    · rw [List.append_assoc]
      exact hasked.trans hrest

/-! ## A run -/

/-- What the end of a run consists in: it returns, if it ends at all. -/
def closing : RunResult → List Event
  | .stopped => [.finish none]
  | .failed cause => [.finish (some cause)]
  | .unfinished => []

/-- Where a run stands that has been followed so far. -/
def stageAfterRun : RunResult → Stage
  | .stopped => .outside
  | .failed _ => .outside
  | .unfinished => .looking

/-- A look that finds the monitor running. -/
theorem follows_look (m : Monitor) (hrunning : m.control.running = true) :
    Follows ⟨m, .looking⟩ [.look true] [] 0 ⟨m, .polling⟩ := by
  have hlook := Step.look m
  rw [hrunning, if_pos rfl] at hlook
  exact hlook.follows (fun _ => rfl) rfl

/-- What is left to a run that looks at an idle monitor. -/
theorem follows_idle (m : Monitor) (hidle : ¬ m.control.running = true) :
    Follows ⟨m, .looking⟩ [.look false, .finish none] [] 0 ⟨m, .outside⟩ := by
  have hlook := Step.look m
  rw [Bool.not_eq_true] at hidle
  rw [hidle, if_neg Bool.false_ne_true] at hlook
  exact (hlook.follows (fun _ => rfl) rfl).trans ((Step.finish m none).follows (fun _ => rfl) rfl)

/-- What is left to a run after a failed poll. -/
theorem follows_halt (m : Monitor) (cause : MonitorError) :
    Follows ⟨m, .halting cause⟩ [.halt, .finish (some cause)] [] 0 ⟨m.halt, .outside⟩ :=
  ((Step.halt m cause).follows (fun _ => rfl) rfl).trans
    ((Step.finish m.halt (some cause)).follows (fun _ => rfl) rfl)

/-- One turn of the loop: a look, a poll that does not fail, and the pause before the next look. -/
theorem follows_turn {m : Monitor} {r : Recorded σ} {count : Nat} (hrunning : m.control.running = true)
    (hresult : (poll p.recorded m r).result = .ok count) :
    ∃ events answered turns, (poll p.recorded m r).chain.answered = r.answered ++ answered ∧
      Follows ⟨m, .looking⟩ events answered turns
        ⟨(poll p.recorded m r).monitor.pause, .looking⟩ := by
  obtain ⟨events, answered, hanswered, hpoll⟩ := follows_poll p m r
  rw [hresult] at hpoll
  obtain ⟨pauses, turns, hpause⟩ := follows_pause (poll p.recorded m r).monitor .pausing
  have hwake : Follows _ [.wake] [] 0 _ :=
    (Step.wake (poll p.recorded m r).monitor.pause).follows (fun _ => rfl) rfl
  have hall := ((follows_look m hrunning).trans hpoll).trans (hpause.trans hwake)
  exact ⟨_, _, _, by simpa using hanswered, hall⟩

theorem follows_runOn (polls : Nat) (m : Monitor) (r : Recorded σ) :
    let ran := runOn p.recorded polls m r
    ∃ events answered turns, ran.chain.answered = r.answered ++ answered ∧
      Follows ⟨m, .looking⟩ (events ++ closing ran.result) answered turns
        ⟨ran.monitor, stageAfterRun ran.result⟩ := by
  -- on the polls: an idle monitor ends the run, and so does a poll that fails
  induction polls generalizing m r with
  | zero =>
    unfold runOn
    by_cases hrunning : m.control.running = true
    · simp only [if_pos hrunning]
      exact ⟨[], [], 0, (List.append_nil _).symm, .nil _⟩
    · simp only [if_neg hrunning]
      exact ⟨[.look false], [], 0, (List.append_nil _).symm, follows_idle m hrunning⟩
  | succ polls ih =>
    unfold runOn
    by_cases hrunning : m.control.running = true
    · simp only [if_pos hrunning]
      cases hresult : (poll p.recorded m r).result with
      | error cause =>
        obtain ⟨events, answered, hanswered, hpoll⟩ := follows_poll p m r
        rw [hresult] at hpoll
        have hall := ((follows_look m hrunning).trans hpoll).trans (follows_halt _ cause)
        rw [List.append_nil] at hall
        refine ⟨[.look true] ++ (events ++ [.pollEnd (some cause)]) ++ [.halt], answered, 0,
          hanswered, ?_⟩
        rw [List.append_assoc]
        exact hall
      | ok count =>
        obtain ⟨events, answered, turns, hanswered, hturn⟩ := follows_turn p hrunning hresult
        obtain ⟨later, answered', turns', hanswered', hrest⟩ :=
          ih (poll p.recorded m r).monitor.pause (poll p.recorded m r).chain
        refine ⟨events ++ later, answered ++ answered', turns + turns', ?_, ?_⟩
        · rw [hanswered', hanswered, List.append_assoc]
        · rw [List.append_assoc]
          exact hturn.trans hrest
    · simp only [if_neg hrunning]
      exact ⟨[.look false], [], 0, (List.append_nil _).symm, follows_idle m hrunning⟩

/-- A run that is followed is an execution. Read as a transcript it holds the questions of the run, each
with its answer and the requests that came with it, and beside them only the stops of the waiting tasks
that have had their turn. -/
theorem follows_run (polls : Nat) (m : Monitor) (chain : σ) :
    ∃ events turns,
      Follows ⟨m, .outside⟩
        (.start m.control.start.1 :: (events ++ closing (run p polls m chain).result))
        (run p.recorded polls m ⟨chain, []⟩).chain.answered turns
        ⟨(run p polls m chain).monitor, stageAfterRun (run p polls m chain).result⟩ := by
  have hstart := (Step.start m).follows (fun _ => rfl) rfl
  obtain ⟨events, answered, turns, hanswered, hrun⟩ :=
    follows_runOn p polls { m with control := m.control.start.2 } ⟨chain, []⟩
  refine ⟨events, turns, ?_⟩
  have hall := hstart.trans hrun
  rw [Nat.zero_add, List.nil_append] at hall
  rw [← run_recorded p polls m ⟨chain, []⟩]
  show Follows _ _ (runOn p.recorded polls _ ⟨chain, []⟩).chain.answered turns _
  rw [hanswered]
  exact hall

end Registrar.Monitor.Loop
