import Mathlib
import Registrar.Monitor.Stoppers

/-!
# No stop is lost and none counts twice

Whatever tasks do at a control and in whatever order, starts and stops that change something take
turns, and a task is done only after the monitor was stopped once more since the task saw it run.
Where tasks cooperate, each task that is done has stopped the monitor itself, and together they do
what `Control.settle` does.
-/

namespace Registrar.Monitor.Stoppers

variable {s t u : Moment} {e : Event} {es turns : List Event} {task : Nat} {met : Bool}

/-! ## Changes -/

/-- The request that an event amounts to, if it changes whether the monitor runs. -/
def Event.change? : Event → Option Request
  | .request r true => some r
  | .stop _ true => some .stop
  | _ => none

/-- The changes among events, in their order. -/
def changes (es : List Event) : List Request :=
  es.filterMap Event.change?

/-- Whether each change undoes the one before it, beginning with a start. -/
def Alternate (rs : List Request) : Prop :=
  (Request.stop :: rs).IsChain (· ≠ ·)

/-- The last change before a moment, if that is when the monitor came to run or to be idle. -/
def lastChange (running : Bool) : Request :=
  if running then .start else .stop

theorem changes_concat (es : List Event) (e : Event) :
    changes (es ++ [e]) = changes es ++ e.change?.toList := by
  unfold changes
  rw [List.filterMap_append, List.filterMap_cons]
  cases e.change? <;> rfl

/-- An event changes nothing, or makes a monitor run that was idle, or the other way round. -/
theorem Step.change (h : Step s e t) :
    (e.change? = none ∧ t.control.running = s.control.running) ∨
    e.change? = some (lastChange t.control.running) ∧
      t.control.running = !s.control.running := by
  cases h with
  | request r =>
    cases hrunning : s.control.running with
    | true =>
      cases r with
      | start =>
        left
        simp [Event.change?, Loop.meets, Control.heed, Control.start, hrunning]
      | stop =>
        right
        simp [Event.change?, Loop.meets, Control.heed, Control.stop, hrunning, lastChange]
    | false =>
      cases r with
      | start =>
        right
        simp [Event.change?, Loop.meets, Control.heed, Control.start, hrunning, lastChange]
      | stop =>
        left
        simp [Event.change?, Loop.meets, Control.heed, Control.stop, hrunning]
  | arrive => exact .inl ⟨rfl, rfl⟩
  | see task => exact .inl ⟨rfl, rfl⟩
  | stop task =>
    cases hrunning : s.control.running with
    | true =>
      right
      simp [Event.change?, Control.stop, hrunning, lastChange]
    | false =>
      left
      simp [Event.change?, Control.stop, hrunning]

/-- What the changes so far tell of the control. -/
structure Balanced (es : List Event) (s : Moment) : Prop where
  alternate : Alternate (changes es)
  last : (Request.stop :: changes es).getLast? = some (lastChange s.control.running)
  count : (changes es).count .start =
    (changes es).count .stop + if s.control.running then 1 else 0

theorem lastChange_not (running : Bool) : lastChange running ≠ lastChange (!running) := by
  cases running <;> decide

theorem Balanced.step (h : Balanced es s) (hstep : Step s e t) : Balanced (es ++ [e]) t := by
  obtain ⟨halternate, hlast, hcount⟩ := h
  rcases hstep.change with ⟨hnone, hsame⟩ | ⟨hsome, hnot⟩
  · have hchanges : changes (es ++ [e]) = changes es := by
      rw [changes_concat, hnone, Option.toList_none, List.append_nil]
    constructor
    · rw [hchanges]
      exact halternate
    · rw [hchanges, hsame]
      exact hlast
    · rw [hchanges, hsame]
      exact hcount
  · have hchanges : changes (es ++ [e]) = changes es ++ [lastChange t.control.running] := by
      rw [changes_concat, hsome, Option.toList_some]
    constructor
    · unfold Alternate
      rw [hchanges, ← List.cons_append, List.isChain_append]
      refine ⟨halternate, List.isChain_singleton _, ?_⟩
      intro x hx y hy
      rw [hlast, Option.mem_some_iff] at hx
      rw [List.head?_cons, Option.mem_some_iff] at hy
      rw [← hx, ← hy, hnot]
      exact lastChange_not s.control.running
    · rw [hchanges, ← List.cons_append, List.getLast?_concat]
    · rw [hchanges, List.count_append, List.count_append, hcount, hnot]
      cases s.control.running <;> simp [lastChange]

theorem Happens.balanced (h : Happens es s) : Balanced es s := by
  induction h with
  | new => exact ⟨List.isChain_singleton _, rfl, rfl⟩
  | step _ hstep ih => exact ih.step hstep

/-! ## The course of a task -/

/-- The task that takes its last step. -/
def Event.finisher? : Event → Option Nat
  | .stop task _ => some task
  | _ => none

/-- The tasks that are done, in the order in which they finished. -/
def finishers (es : List Event) : List Nat :=
  es.filterMap Event.finisher?

/-- Whether a task has seen the monitor run. If the monitor is idle now it was stopped since. -/
def Seen (es : List Event) (task : Nat) (running : Bool) : Prop :=
  ∃ before after, es = before ++ .see task :: after ∧ (running = false → .stop ∈ changes after)

/-- What a task has seen it has seen for good: an event that leaves the monitor idle stops it, or it
was idle before. -/
theorem Seen.step (h : Seen es task s.control.running) (hstep : Step s e t) :
    Seen (es ++ [e]) task t.control.running := by
  obtain ⟨before, after, rfl, hstopped⟩ := h
  refine ⟨before, after ++ [e], ?_, ?_⟩
  · rw [List.append_assoc, List.cons_append]
  · intro hidle
    rw [changes_concat, List.mem_append]
    rcases hstep.change with ⟨-, hsame⟩ | ⟨hsome, -⟩
    · rw [hsame] at hidle
      exact .inl (hstopped hidle)
    · rw [hsome, hidle]
      exact .inr (List.mem_singleton_self _)

/-- What the events so far tell of the tasks. -/
structure Followed (es : List Event) (s : Moment) : Prop where
  /-- The control counts the tasks that wait. -/
  waiting : s.control.waiting = s.stages.count .waiting
  alerted : ∀ task, s.stages[task]? = some .alerted → Seen es task s.control.running
  done : ∀ task, task ∈ finishers es ↔ s.stages[task]? = some .done
  nodup : (finishers es).Nodup

theorem finishers_concat (es : List Event) (e : Event) :
    finishers (es ++ [e]) = finishers es ++ e.finisher?.toList := by
  unfold finishers
  rw [List.filterMap_append, List.filterMap_cons]
  cases e.finisher? <;> rfl

/-- How many tasks are at a stage when one of them goes on from another. -/
theorem count_set_of_getElem? {stages : List Stage} {task : Nat} {old : Stage}
    (h : stages[task]? = some old) (new stage : Stage) :
    (stages.set task new).count stage + (if old = stage then 1 else 0) =
      stages.count stage + if new = stage then 1 else 0 := by
  obtain ⟨hlt, rfl⟩ := List.getElem?_eq_some_iff.mp h
  rw [List.count_set hlt]
  have hpos : stages[task] = stage → 0 < stages.count stage := by
    rintro rfl
    exact List.count_pos_iff.mpr (List.getElem_mem hlt)
  simp only [beq_iff_eq]
  split_ifs with hold hnew hnew
  · have := hpos hold
    omega
  · have := hpos hold
    omega
  · omega
  · omega

/-- A task that goes on comes to its next stage, and the others stay at theirs. -/
theorem getElem?_set_of_getElem? {stages : List Stage} {task : Nat} {old : Stage}
    (h : stages[task]? = some old) (new : Stage) (other : Nat) :
    (stages.set task new)[other]? = if task = other then some new else stages[other]? := by
  obtain ⟨hlt, -⟩ := List.getElem?_eq_some_iff.mp h
  rw [List.getElem?_set, if_pos hlt]

/-- A task that comes is at no other stage than its first. -/
theorem getElem?_arrive {stages : List Stage} {stage : Stage} (h : stage ≠ .waiting) (task : Nat) :
    (stages ++ [.waiting])[task]? = some stage ↔ stages[task]? = some stage := by
  rw [List.getElem?_append]
  split_ifs with hlt
  · rfl
  · rw [List.getElem?_eq_none (Nat.le_of_not_lt hlt), List.getElem?_singleton]
    split_ifs <;> simp [h.symm]

/-- As long as no task takes its last step, those that are done stay the same. -/
theorem finishers_concat_of_none (h : e.finisher? = none) :
    finishers (es ++ [e]) = finishers es := by
  rw [finishers_concat, h, Option.toList_none, List.append_nil]

theorem Followed.step (h : Followed es s) (hstep : Step s e t) : Followed (es ++ [e]) t := by
  obtain ⟨hwaiting, halerted, hdone, hnodup⟩ := h
  have hkept (task : Nat) (h : s.stages[task]? = some .alerted) :
      Seen (es ++ [e]) task t.control.running := (halerted task h).step hstep
  cases hstep with
  | request r =>
    rw [← finishers_concat_of_none (e := .request r (Loop.meets s.control r)) rfl] at hdone hnodup
    refine ⟨?_, hkept, hdone, hnodup⟩
    cases r <;> exact hwaiting
  | arrive =>
    rw [← finishers_concat_of_none (e := .arrive) rfl] at hdone hnodup
    refine ⟨?_, ?_, ?_, hnodup⟩
    · show s.control.waiting + 1 = _
      rw [List.count_append, hwaiting]
      rfl
    · intro task htask
      exact hkept task ((getElem?_arrive (by decide) task).mp htask)
    · intro task
      rw [hdone]
      exact (getElem?_arrive (by decide) task).symm
  | see task hrunning htask =>
    rw [← finishers_concat_of_none (e := .see task) rfl] at hdone hnodup
    refine ⟨?_, ?_, ?_, hnodup⟩
    · show s.control.waiting - 1 = (s.stages.set task .alerted).count .waiting
      have hcount := count_set_of_getElem? htask .alerted .waiting
      simp only [reduceCtorEq, reduceIte] at hcount
      omega
    · intro other hother
      rw [getElem?_set_of_getElem? htask] at hother
      split_ifs at hother with hsame
      · -- the task that sees the monitor run now
        refine ⟨es, [], by rw [hsame], ?_⟩
        intro hidle
        exact absurd hidle (by simp [hrunning])
      · exact hkept other hother
    · intro other
      rw [hdone, getElem?_set_of_getElem? htask]
      split_ifs with hsame
      · rw [← hsame, htask]
        simp
      · rfl
  | stop task htask =>
    have hnew : task ∉ finishers es := by
      rw [hdone, htask]
      simp
    have hfinishers : finishers (es ++ [.stop task s.control.stop.1]) = finishers es ++ [task] :=
      finishers_concat _ _
    refine ⟨?_, ?_, ?_, ?_⟩
    · show s.control.waiting = (s.stages.set task .done).count .waiting
      have hcount := count_set_of_getElem? htask .done .waiting
      simp only [reduceCtorEq, reduceIte] at hcount
      omega
    · intro other hother
      rw [getElem?_set_of_getElem? htask] at hother
      split_ifs at hother with hsame
      · cases hother
      · exact hkept other hother
    · intro other
      rw [hfinishers, List.mem_append, List.mem_singleton, hdone, getElem?_set_of_getElem? htask]
      split_ifs with hsame
      · simp [hsame]
      · simp [Ne.symm hsame]
    · rw [hfinishers, List.nodup_append_comm]
      exact List.nodup_cons.mpr ⟨hnew, hnodup⟩

theorem Happens.followed (h : Happens es s) : Followed es s := by
  induction h with
  | new => exact ⟨rfl, by simp, by simp [finishers], List.nodup_nil⟩
  | step _ hstep ih => exact ih.step hstep

/-- A task that takes its last step has seen the monitor run, and the monitor was stopped since, by
this step or before it. -/
theorem Happens.finish (h : Happens es s) (hstop : Step s (.stop task met) t) :
    ∃ before after, es = before ++ .see task :: after ∧ (met ∨ .stop ∈ changes after) := by
  cases hstop with
  | stop _ htask =>
    obtain ⟨before, after, hes, hstopped⟩ := h.followed.alerted task htask
    refine ⟨before, after, hes, ?_⟩
    cases hrunning : s.control.running with
    | true => exact .inl hrunning
    | false => exact .inr (hstopped hrunning)

/-! ## Cooperation -/

theorem Happens.append_pair {e' : Event} (h : Happens es s) (he : Step s e t) (he' : Step t e' u) :
    Happens (es ++ [e, e']) u := by
  have hboth := (h.step he).step he'
  rwa [List.append_assoc] at hboth

/-- A task can see the monitor run while the monitor does run and a task waits. -/
theorem exists_see_iff :
    (∃ task t, Step s (.see task) t) ↔ s.control.running ∧ .waiting ∈ s.stages := by
  constructor
  · rintro ⟨task, t, hsee⟩
    cases hsee with
    | see _ hrunning htask => exact ⟨hrunning, List.mem_of_getElem? htask⟩
  · rintro ⟨hrunning, hwaiting⟩
    obtain ⟨task, htask⟩ := List.mem_iff_getElem?.mp hwaiting
    exact ⟨task, _, .see s task hrunning htask⟩

/-- A task that waits while the monitor runs takes both its steps. -/
theorem step_turn (hrunning : s.control.running = true) (htask : s.stages[task]? = some .waiting) :
    ∃ t, Step s (.see task) t ∧
      Step t (.stop task true) ⟨⟨false, s.control.waiting - 1⟩, s.stages.set task .done⟩ := by
  have halerted : (s.stages.set task .alerted)[task]? = some .alerted := by
    rw [getElem?_set_of_getElem? htask, if_pos rfl]
  have hsee : Step s (.see task)
      ⟨⟨s.control.running, s.control.waiting - 1⟩, s.stages.set task .alerted⟩ :=
    .see s task hrunning htask
  have hstop := Step.stop ⟨⟨true, s.control.waiting - 1⟩, s.stages.set task .alerted⟩ task halerted
  rw [List.set_set] at hstop
  rw [hrunning] at hsee
  exact ⟨_, hsee, hstop⟩

/-- What the tasks do when they go on as far as they can: nothing unless the monitor runs and one of
them waits, and else one of them stops it and is done. -/
theorem settles_iff :
    Settles s turns t ↔
      (¬ (s.control.running ∧ .waiting ∈ s.stages) ∧ turns = [] ∧ t = s) ∨
      ∃ task, s.control.running ∧ s.stages[task]? = some .waiting ∧
        turns = [.see task, .stop task true] ∧
        t = ⟨⟨false, s.control.waiting - 1⟩, s.stages.set task .done⟩ := by
  constructor
  · intro h
    cases h with
    | rest hnone =>
      refine .inl ⟨?_, rfl, rfl⟩
      rw [← exists_see_iff]
      rintro ⟨task, t, hsee⟩
      exact hnone task t hsee
    | @turn _ _ _ _ task _ _ hsee hstop hrest =>
      cases hsee with
      | see _ hrunning htask =>
        cases hstop with
        | stop _ halerted =>
          -- the monitor is idle after one turn, so no task can take another one
          cases hrest with
          | turn hagain => cases hagain with | see _ hidle => cases hidle
          | rest =>
            refine .inr ⟨task, hrunning, htask, ?_, ?_⟩
            · simp [Control.stop, hrunning]
            · simp [Control.stop, List.set_set]
  · rintro (⟨hnone, rfl, rfl⟩ | ⟨task, hrunning, htask, rfl, rfl⟩)
    · refine .rest fun task t hsee => hnone ?_
      exact exists_see_iff.mp ⟨task, t, hsee⟩
    · obtain ⟨t, hsee, hstop⟩ := step_turn hrunning htask
      refine .turn hsee hstop (.rest ?_)
      intro _ _ hagain
      cases hagain with | see _ hidle => cases hidle

/-- The tasks together do what `Control.settle` does. -/
theorem Settles.control (h : Settles s turns t)
    (hwaiting : s.control.waiting = s.stages.count .waiting) : t.control = s.control.settle := by
  have hpos : 0 < s.control.waiting ↔ .waiting ∈ s.stages := by
    rw [hwaiting, List.count_pos_iff]
  unfold Control.settle
  rcases settles_iff.mp h with ⟨hnone, -, rfl⟩ | ⟨task, hrunning, htask, -, rfl⟩
  · rw [if_neg fun hturn => hnone ⟨hturn.1, hpos.mp hturn.2⟩]
  · rw [if_pos ⟨hrunning, hpos.mpr (List.mem_of_getElem? htask)⟩]

/-- The tasks can always go on until none of them can. -/
theorem exists_settles (s : Moment) : ∃ turns t, Settles s turns t := by
  by_cases hturn : s.control.running ∧ .waiting ∈ s.stages
  · obtain ⟨task, htask⟩ := List.mem_iff_getElem?.mp hturn.2
    exact ⟨_, _, settles_iff.mpr (.inr ⟨task, hturn.1, htask, rfl, rfl⟩)⟩
  · exact ⟨_, _, settles_iff.mpr (.inl ⟨hturn, rfl, rfl⟩)⟩

theorem Settles.happens (h : Settles s turns t) (hs : Happens es s) : Happens (es ++ turns) t := by
  rcases settles_iff.mp h with ⟨-, rfl, rfl⟩ | ⟨task, hrunning, htask, rfl, rfl⟩
  · rwa [List.append_nil]
  · obtain ⟨u, hsee, hstop⟩ := step_turn hrunning htask
    exact hs.append_pair hsee hstop

/-- What holds after each round when the tasks cooperate. -/
structure Settled (es : List Event) (s : Moment) : Prop where
  happens : Happens es s
  own : ∀ task met, .stop task met ∈ es → met = true
  apart : ¬ (s.control.running ∧ .waiting ∈ s.stages)

theorem Settled.round (h : Settled es s) (hround : Round s e turns t) :
    Settled (es ++ e :: turns) t := by
  cases hround with
  | mk hcall hstep hsettles =>
    have hevents : es ++ e :: turns = es ++ [e] ++ turns := by simp
    refine ⟨?_, ?_, ?_⟩
    · rw [hevents]
      exact hsettles.happens (h.happens.step hstep)
    · intro task met hmem
      rw [List.mem_append, List.mem_cons] at hmem
      rcases hmem with hbefore | rfl | hturns
      · exact h.own task met hbefore
      · cases hcall
      · rcases settles_iff.mp hsettles with ⟨-, rfl, -⟩ | ⟨other, -, -, rfl, -⟩
        · cases hturns
        · simp only [List.mem_cons, List.not_mem_nil, or_false, reduceCtorEq, false_or] at hturns
          exact (Event.stop.inj hturns).2
    · rcases settles_iff.mp hsettles with ⟨hnone, -, rfl⟩ | ⟨other, -, -, -, rfl⟩
      · exact hnone
      · rintro ⟨hrunning, -⟩
        cases hrunning

theorem Cooperates.settled (h : Cooperates es s) : Settled es s := by
  induction h with
  | new => exact ⟨.new, by simp, by simp⟩
  | round _ hround ih => exact ih.round hround

/-- When a start is met and tasks wait, one of them stops the monitor and is done. -/
theorem Settled.start_waiting (h : Settled es s) {waiting : Nat}
    (hwaiting : s.stages.count .waiting = waiting + 1)
    (hround : Round s (.request .start true) turns t) :
    ∃ task, s.stages[task]? = some .waiting ∧ turns = [.see task, .stop task true] ∧
      t = ⟨⟨false, waiting⟩, s.stages.set task .done⟩ ∧ t.stages.count .waiting = waiting := by
  cases hround with
  | mk _ hstep hsettles =>
    generalize hevent : Event.request .start true = e at hstep
    cases hstep with
    | request r =>
      obtain ⟨rfl, -⟩ := Event.request.inj hevent
      have hmem : .waiting ∈ s.stages := List.count_pos_iff.mp (by omega)
      rcases settles_iff.mp hsettles with ⟨hnone, -⟩ | ⟨task, -, htask, rfl, rfl⟩
      · exact absurd ⟨rfl, hmem⟩ hnone
      · have hcontrol : s.control.waiting = waiting + 1 := by
          rw [h.happens.followed.waiting, hwaiting]
        have hcount := count_set_of_getElem? htask .done .waiting
        simp only [reduceCtorEq, reduceIte] at hcount
        refine ⟨task, htask, rfl, ?_, ?_⟩
        · show (⟨⟨false, s.control.waiting - 1⟩, _⟩ : Moment) = _
          rw [hcontrol, Nat.add_sub_cancel]
        · show (s.stages.set task .done).count .waiting = waiting
          omega
    | _ => cases hevent

/-- When a start is met and no task waits, the monitor runs. -/
theorem Settled.start_alone (h : Settled es s) (hwaiting : s.stages.count .waiting = 0)
    (hround : Round s (.request .start true) turns t) :
    turns = [] ∧ t = ⟨⟨true, 0⟩, s.stages⟩ := by
  cases hround with
  | mk _ hstep hsettles =>
    generalize hevent : Event.request .start true = e at hstep
    cases hstep with
    | request r =>
      obtain ⟨rfl, -⟩ := Event.request.inj hevent
      have hnone : .waiting ∉ s.stages := List.count_eq_zero.mp hwaiting
      rcases settles_iff.mp hsettles with ⟨-, rfl, rfl⟩ | ⟨task, -, htask, -⟩
      · refine ⟨rfl, ?_⟩
        rw [← hwaiting, ← h.happens.followed.waiting]
        rfl
      · exact absurd (List.mem_of_getElem? htask) hnone
    | _ => cases hevent

/-! ## Both ways to go on -/

/-- **No stop is lost and none counts twice.** Anyone may start and stop a monitor and any number of
tasks may come to stop it when it runs. Whatever the order of their steps:

- Starts and stops that change something take turns, a start first, and the monitor runs if there
  was one more start than stops.
- A task can see the monitor run whenever it does, and can then always take its last step. It takes
  that once, and not before the monitor was stopped since the task saw it run, by this step or by
  another one.

If the tasks cooperate, this is how it goes on:

- Every task that is done has stopped the monitor itself, no task waits while the monitor runs, and
  after each event the control is what `Control.settle` makes of it.
- A start that is met is undone by just one of the tasks that wait, if there are any, and else the
  monitor runs. -/
theorem no_stop_lost_or_doubled :
    (∀ es s, Happens es s →
      Alternate (changes es) ∧
      (s.control.running ↔ (changes es).count .start = (changes es).count .stop + 1) ∧
      (∀ task, s.stages[task]? = some .waiting →
        ((∃ t, Step s (.see task) t) ↔ s.control.running)) ∧
      (∀ task, s.stages[task]? = some .alerted → ∃ met t, Step s (.stop task met) t) ∧
      (∀ task met t, Step s (.stop task met) t →
        ∃ before after, es = before ++ .see task :: after ∧ (met ∨ .stop ∈ changes after)) ∧
      (finishers es).Nodup ∧
      ∀ task, task ∈ finishers es ↔ s.stages[task]? = some .done) ∧
    ∀ es s, Cooperates es s →
      Happens es s ∧
      (∀ task met, .stop task met ∈ es → met = true) ∧
      ¬ (s.control.running ∧ .waiting ∈ s.stages) ∧
      (∀ e t, e.isOfTask = false → Step s e t →
        (∃ turns u, Round s e turns u) ∧
          ∀ turns u, Settles t turns u → u.control = t.control.settle) ∧
      ∀ turns t, Round s (.request .start true) turns t →
        (∀ waiting, s.stages.count .waiting = waiting + 1 →
          ∃ task, s.stages[task]? = some .waiting ∧ turns = [.see task, .stop task true] ∧
            t = ⟨⟨false, waiting⟩, s.stages.set task .done⟩ ∧
            t.stages.count .waiting = waiting) ∧
        (s.stages.count .waiting = 0 → turns = [] ∧ t = ⟨⟨true, 0⟩, s.stages⟩) := by
  constructor
  · intro es s h
    have hbalanced := h.balanced
    have hfollowed := h.followed
    refine ⟨hbalanced.alternate, ?_, ?_, ?_, ?_, hfollowed.nodup, hfollowed.done⟩
    · rw [hbalanced.count]
      cases s.control.running <;> simp
    · intro task htask
      constructor
      · rintro ⟨t, hsee⟩
        exact (exists_see_iff.mp ⟨task, t, hsee⟩).1
      · intro hrunning
        exact ⟨_, .see s task hrunning htask⟩
    · intro task htask
      exact ⟨_, _, .stop s task htask⟩
    · intro task met t hstop
      exact h.finish hstop
  · intro es s h
    have hsettled := h.settled
    refine ⟨hsettled.happens, hsettled.own, hsettled.apart, ?_, ?_⟩
    · intro e t hcall hstep
      constructor
      · obtain ⟨turns, u, hsettles⟩ := exists_settles t
        exact ⟨turns, u, .mk hcall hstep hsettles⟩
      · intro turns u hsettles
        exact hsettles.control (hsettled.happens.step hstep).followed.waiting
    · intro turns t hround
      exact ⟨fun waiting hwaiting => hsettled.start_waiting hwaiting hround,
        fun hnone => hsettled.start_alone hnone hround⟩

/-- Two tasks see the same start, and one of them stops the monitor. -/
def race : List Event :=
  [.arrive, .arrive, .request .start true, .see 0, .see 1, .stop 0 true]

/-- Then the other one is done without a change of its own. If the tasks cooperate, the one that
came last goes on waiting. -/
theorem no_stop_lost_or_doubled_race :
    Happens race ⟨⟨false, 0⟩, [.done, .alerted]⟩ ∧
    Step ⟨⟨false, 0⟩, [.done, .alerted]⟩ (.stop 1 false) ⟨⟨false, 0⟩, [.done, .done]⟩ ∧
    (∃ before after, race = before ++ .see 1 :: after ∧ (false = true ∨ .stop ∈ changes after)) ∧
    Cooperates [.arrive, .arrive] ⟨⟨false, 2⟩, [.waiting, .waiting]⟩ ∧
    ∃ turns t, Round ⟨⟨false, 2⟩, [.waiting, .waiting]⟩ (.request .start true) turns t ∧
      t.control = ⟨false, 1⟩ ∧ t.stages.count .waiting = 1 := by
  have hfirst : Happens [.arrive, .arrive, .request .start true]
      ⟨⟨true, 2⟩, [.waiting, .waiting]⟩ :=
    ((Happens.new.step (.arrive _)).step (.arrive _)).step (.request _ .start)
  have hrace : Happens race ⟨⟨false, 0⟩, [.done, .alerted]⟩ :=
    ((hfirst.step (.see _ 0 rfl rfl)).step (.see _ 1 rfl rfl)).step (.stop _ 0 rfl)
  have hlate : Step ⟨⟨false, 0⟩, [.done, .alerted]⟩ (.stop 1 false)
      ⟨⟨false, 0⟩, [.done, .done]⟩ := .stop _ 1 rfl
  have harrive (stages : List Stage) : Round ⟨⟨false, stages.length⟩, stages⟩ .arrive []
      ⟨⟨false, stages.length + 1⟩, stages ++ [.waiting]⟩ :=
    .mk rfl (.arrive _) (.rest fun task t hsee => by cases hsee with | see _ hidle => cases hidle)
  have hboth : Cooperates [.arrive, .arrive] ⟨⟨false, 2⟩, [.waiting, .waiting]⟩ :=
    (Cooperates.new.round (harrive [])).round (harrive [.waiting])
  obtain ⟨hany, hcooperative⟩ := no_stop_lost_or_doubled
  obtain ⟨-, -, -, hgoes, hstart⟩ := hcooperative _ _ hboth
  obtain ⟨⟨turns, t, hround⟩, -⟩ :=
    hgoes _ _ rfl (Step.request ⟨⟨false, 2⟩, [.waiting, .waiting]⟩ .start)
  obtain ⟨task, -, -, ht, hwaiting⟩ := (hstart turns t hround).1 1 rfl
  refine ⟨hrace, hlate, (hany _ _ hrace).2.2.2.2.1 1 false _ hlate, hboth, turns, t, hround, ?_,
    hwaiting⟩
  rw [ht]

end Registrar.Monitor.Stoppers
