import Mathlib
import Registrar.Monitor.Loop
import Registrar.Proofs.Monitor.Loop.Execution
import Registrar.Proofs.Monitor.Polling

/-!
# Polls among other tasks

From its first look to its last answer a poll reads nothing of the control, so other tasks have no
part in it: `PollSoFar` says how far a poll has come, and every action but its end keeps that. Over all
polls of all runs the blocks are processed at ascending heights without a gap.
-/

namespace Registrar.Monitor.Loop

open Chain (Block)

/-! ## Kinds of events -/

/-- Whether another task asks for something. -/
def Event.isRequest : Event → Bool
  | .request _ _ => true
  | _ => false

/-- Whether this is an action within a poll. -/
def Event.inPoll : Event → Bool
  | .askHeight => true
  | .hearHeight _ => true
  | .askBlock _ => true
  | .hearBlock _ _ => true
  | .process _ _ => true
  | _ => false

def Event.isPollEnd : Event → Bool
  | .pollEnd _ => true
  | _ => false

/-- The height that is read. -/
def Event.goal? : Event → Option UInt64
  | .hearHeight (.ok goal) => some goal
  | _ => none

/-- Why the poll cannot go on after an answer. -/
def Event.failure? : Event → Option MonitorError
  | .hearHeight (.error cause) => some (.provider cause)
  | .hearBlock _ (.error cause) => some (.provider cause)
  | .hearBlock height (.ok none) => some (.missingBlock height)
  | _ => none

/-- The block that is processed, and its height. -/
def Event.processed? : Event → Option (UInt64 × Block)
  | .process height b => some (height, b)
  | _ => none

/-- Whether the height that is to be reached is still above the one that is processed, wherever a
block is under way. -/
def Moment.Within (s : Moment) : Prop :=
  match s.stage with
  | .awaitingBlock goal => s.monitor.height < goal
  | .processing goal _ => s.monitor.height < goal
  | _ => True

variable {s t u : Moment} {e : Event} {es : List Event}

/-- An event of another kind adds nothing. -/
theorem filterMap_concat_none {β : Type} {f : Event → Option β} (h : f e = none) :
    (es ++ [e]).filterMap f = es.filterMap f := by
  rw [List.filterMap_append, List.filterMap_cons_none h, List.filterMap_nil, List.append_nil]

theorem filterMap_concat_some {β : Type} {f : Event → Option β} {b : β} (h : f e = some b) :
    (es ++ [e]).filterMap f = es.filterMap f ++ [b] := by
  rw [List.filterMap_append, List.filterMap_cons_some h, List.filterMap_nil]

/-- A block is asked for only below the height that is to be reached, and nothing but its processing
changes the height. -/
theorem Step.within (h : Step s e t) (hs : s.Within) : t.Within := by
  cases h with
  | request => exact hs
  | look m =>
    unfold Moment.Within
    cases m.control.running <;> trivial
  | askBlock m goal hlt => exact hlt
  | block => exact hs
  | _ => trivial

/-! ## A poll under way -/

/-- Whether every answer so far could be used, and these heights were read. -/
structure Heard (goals : List UInt64) (es : List Event) : Prop where
  goals : es.filterMap Event.goal? = goals
  failures : es.filterMap Event.failure? = []

theorem Heard.nil : Heard [] [] :=
  ⟨rfl, rfl⟩

theorem Heard.add {goals : List UInt64} (h : Heard goals es) (hgoal : e.goal? = none)
    (hfailure : e.failure? = none) : Heard goals (es ++ [e]) := by
  constructor
  · rw [filterMap_concat_none hgoal, h.goals]
  · rw [filterMap_concat_none hfailure, h.failures]

theorem Heard.height {goals : List UInt64} (h : Heard goals es) (goal : UInt64) :
    Heard (goals ++ [goal]) (es ++ [.hearHeight (.ok goal)]) := by
  constructor
  · rw [filterMap_concat_some (by rfl), h.goals]
  · rw [filterMap_concat_none (by rfl), h.failures]

/-- How far a poll has come that began at the height `low`, and what has happened since. -/
inductive PollSoFar (low : UInt64) : List Event → Moment → Prop where
  /-- The height of the chain is not known yet. -/
  | unheard {es : List Event} {m : Monitor} {stage : Stage} :
    stage = .polling ∨ stage = .awaitingHeight → m.height = low → Heard [] es →
    PollSoFar low es ⟨m, stage⟩
  /-- Some of the blocks up to it are processed. -/
  | heard {es : List Event} {m : Monitor} {stage : Stage} {goal : UInt64} :
    stage = .comparing goal ∨ stage = .awaitingBlock goal ∨ (∃ b, stage = .processing goal b) →
    low ≤ m.height → m.height = low ∨ m.height ≤ goal → Heard [goal] es →
    PollSoFar low es ⟨m, stage⟩
  /-- An answer could not be used, and nothing of the poll has happened since. -/
  | failed {front back : List Event} {last : Event} {m : Monitor} {cause : MonitorError} :
    front.filterMap Event.failure? = [] → last.failure? = some cause →
    (∀ e ∈ back, e.isRequest) → PollSoFar low (front ++ last :: back) ⟨m, .failing cause⟩

namespace PollSoFar

variable {low : UInt64}

/-- What other tasks ask for changes nothing of the poll. -/
theorem request {m : Monitor} {stage : Stage} (h : PollSoFar low es ⟨m, stage⟩) (r : Request)
    (met : Bool) (control : Control) :
    PollSoFar low (es ++ [.request r met]) ⟨{ m with control }, stage⟩ := by
  cases h with
  | unheard hstage hheight hheard => exact .unheard hstage hheight (hheard.add rfl rfl)
  | heard hstage hlow hhigh hheard => exact .heard hstage hlow hhigh (hheard.add rfl rfl)
  | @failed front back last m cause hfront hlast hback =>
    rw [List.append_assoc, List.cons_append]
    refine .failed hfront hlast ?_
    intro e he
    rcases List.mem_append.mp he with he | he
    · exact hback e he
    · rw [List.mem_singleton.mp he]
      rfl

/-- What a step adds to a poll, unless it ends it. -/
theorem step (h : PollSoFar low es t) (hwithin : t.Within) (hstep : Step t e u)
    (he : e.isPollEnd = false) : (e.isRequest ∨ e.inPoll) ∧ PollSoFar low (es ++ [e]) u := by
  -- at each stage there is one way on for each answer, and the requests of other tasks
  have hall := h
  cases h with
  | unheard hstage hheight hheard =>
    rcases hstage with rfl | rfl
    · cases hstep with
      | request => exact ⟨.inl rfl, hall.request _ _ _⟩
      | askHeight => exact ⟨.inr rfl, .unheard (.inr rfl) hheight (hheard.add rfl rfl)⟩
    · cases hstep with
      | request => exact ⟨.inl rfl, hall.request _ _ _⟩
      | height m goal =>
        exact ⟨.inr rfl,
          .heard (.inl rfl) (UInt64.le_of_eq hheight.symm) (.inl hheight) (hheard.height goal)⟩
      | heightRefused => exact ⟨.inr rfl, .failed hheard.failures rfl (by simp)⟩
  | @heard es m stage goal hstage hlow hhigh hheard =>
    rcases hstage with rfl | rfl | ⟨b, rfl⟩
    · cases hstep with
      | request => exact ⟨.inl rfl, hall.request _ _ _⟩
      | askBlock =>
        exact ⟨.inr rfl, .heard (.inr (.inl rfl)) hlow hhigh (hheard.add rfl rfl)⟩
      | caughtUp => cases he
    · cases hstep with
      | request => exact ⟨.inl rfl, hall.request _ _ _⟩
      | block m goal b =>
        exact ⟨.inr rfl, .heard (.inr (.inr ⟨b, rfl⟩)) hlow hhigh (hheard.add rfl rfl)⟩
      | blockMissing => exact ⟨.inr rfl, .failed hheard.failures rfl (by simp)⟩
      | blockRefused => exact ⟨.inr rfl, .failed hheard.failures rfl (by simp)⟩
    · cases hstep with
      | request => exact ⟨.inl rfl, hall.request _ _ _⟩
      | process =>
        -- one block more, and still not above the height that was read
        have hlt : m.height < goal := hwithin
        have hnext : (m.height + 1).toNat = m.height.toNat + 1 := toNat_succ hlt
        refine ⟨.inr rfl, .heard (.inl rfl) ?_ (.inr ?_) (hheard.add rfl rfl)⟩
        · show low ≤ m.height + 1
          rw [UInt64.le_iff_toNat_le] at hlow ⊢
          omega
        · show m.height + 1 ≤ goal
          rw [UInt64.lt_iff_toNat_lt] at hlt
          rw [UInt64.le_iff_toNat_le]
          omega
  | failed hfront hlast hback =>
    cases hstep with
    | request => exact ⟨.inl rfl, hall.request _ _ _⟩
    | fail => cases he

end PollSoFar

/-- What a poll comes to that begins at the height `low` and ends at `high`. Unless it fails it has
read one height and stands there, or where it began if that is no lower. If it fails, it is at the
first answer that could not be used, and nothing of the poll happens after that answer. -/
def PollResult (low high : UInt64) (es : List Event) : Option MonitorError → Prop
  | none => es.filterMap Event.failure? = [] ∧
    ∃ goal, es.filterMap Event.goal? = [goal] ∧ high = if low < goal then goal else low
  | some cause => ∃ front last back, es = front ++ last :: back ∧
    front.filterMap Event.failure? = [] ∧ last.failure? = some cause ∧ ∀ e ∈ back, e.isRequest

variable {low : UInt64}

/-- A poll ends at the height that it read, or at its first failure. -/
theorem PollSoFar.result {failure : Option MonitorError} (h : PollSoFar low es t)
    (hstep : Step t (.pollEnd failure) u) : PollResult low u.monitor.height es failure := by
  cases h with
  | unheard hstage hheight hheard => rcases hstage with rfl | rfl <;> cases hstep
  | @heard es m stage goal hstage hlow hhigh hheard =>
    rcases hstage with rfl | rfl | ⟨b, rfl⟩
    · cases hstep with
      | caughtUp _ _ hge =>
        -- no height is processed beyond the one that was read
        refine ⟨hheard.failures, goal, hheard.goals, ?_⟩
        show m.height = _
        split <;> grind
    · cases hstep
    · cases hstep
  | failed hfront hlast hback =>
    cases hstep with
    | fail => exact ⟨_, _, _, rfl, hfront, hlast, hback⟩

/-- The same moment with another control. -/
def Moment.withControl (s : Moment) (control : Control) : Moment :=
  { s with monitor := { s.monitor with control } }

/-- A poll does the same whatever the control is. -/
theorem Step.withControl (h : Step s e t) (he : e.inPoll ∨ e.isPollEnd) (control : Control) :
    Step (s.withControl control) e (t.withControl control) := by
  cases h with
  | askHeight m => exact .askHeight _
  | height m goal => exact .height _ goal
  | heightRefused m cause => exact .heightRefused _ cause
  | askBlock m goal hlt => exact .askBlock { m with control } goal hlt
  | block m goal b => exact .block { m with control } goal b
  | blockMissing m goal => exact .blockMissing { m with control } goal
  | blockRefused m goal cause => exact .blockRefused { m with control } goal cause
  | process m goal b =>
    -- a block is processed without a look at the control
    have hother := Step.process { m with control } goal b
    rw [processBlock_monitor] at hother ⊢
    exact hother
  | caughtUp m goal hge => exact .caughtUp { m with control } goal hge
  | fail m cause => exact .fail _ cause
  | _ => simp [Event.inPoll, Event.isPollEnd] at he

/-- Until it ends there is something to do in a poll. -/
theorem PollSoFar.exists_step (h : PollSoFar low es t) :
    ∃ e u, e.isRequest = false ∧ Step t e u := by
  cases h with
  | @unheard es m stage hstage =>
    rcases hstage with rfl | rfl
    · exact ⟨_, _, rfl, .askHeight m⟩
    · exact ⟨_, _, rfl, .height m 0⟩
  | @heard es m stage goal hstage =>
    rcases hstage with rfl | rfl | ⟨b, rfl⟩
    · by_cases hlt : m.height < goal
      · exact ⟨_, _, rfl, .askBlock m goal hlt⟩
      · exact ⟨_, _, rfl, .caughtUp m goal hlt⟩
    · exact ⟨_, _, rfl, .blockMissing m goal⟩
    · exact ⟨_, _, rfl, .process m goal b⟩
  | @failed front back last m cause => exact ⟨_, _, rfl, .fail m cause⟩

/-- What a run does at a look. -/
theorem step_look {running : Bool} (h : Step s (.look running) t) :
    s.stage = .looking ∧ s.monitor.control.running = running ∧
      t = ⟨s.monitor, if running then .polling else .ending none⟩ := by
  generalize hevent : Event.look running = e at h
  cases h with
  | look m =>
    obtain rfl := Event.look.inj hevent
    exact ⟨rfl, rfl, rfl⟩
  | _ => cases hevent

/-- From its look on, a poll goes its way until it ends. -/
theorem Executes.pollSoFar (h : Executes s (.look true :: es) t)
    (hopen : ∀ e ∈ es, e.isPollEnd = false) :
    (∀ e ∈ es, e.isRequest ∨ e.inPoll) ∧ PollSoFar s.monitor.height es t ∧ t.Within := by
  obtain ⟨r, hlook, hrest⟩ := executes_cons_iff.mp h
  obtain ⟨-, -, rfl⟩ := step_look hlook
  refine hrest.invariant (motive := fun es t => (∀ e ∈ es, e.isPollEnd = false) →
    (∀ e ∈ es, e.isRequest ∨ e.inPoll) ∧ PollSoFar s.monitor.height es t ∧ t.Within) ?_ ?_ hopen
  · intro hopen
    exact ⟨by simp, .unheard (.inl rfl) rfl .nil, trivial⟩
  · intro es t e u ih hstep hopen
    rw [List.forall_mem_append, List.forall_mem_singleton] at hopen
    obtain ⟨hevents, hsofar, hwithin⟩ := ih hopen.1
    obtain ⟨hevent, hnext⟩ := hsofar.step hwithin hstep hopen.2
    refine ⟨?_, hnext, hstep.within hwithin⟩
    rw [List.forall_mem_append, List.forall_mem_singleton]
    exact ⟨hevents, hevent⟩

/-! ## All polls -/

/-- What one step does to a monitor: a block is processed below the height that was read, or the work
stays as it is. -/
theorem Step.effect (h : Step s e t) (hs : s.Within) :
    (e.processed? = none ∧ t.monitor.height = s.monitor.height ∧ SameWork t.monitor s.monitor) ∨
    ∃ goal b, s.monitor.height < goal ∧ e.processed? = some (s.monitor.height + 1, b) ∧
      t.monitor = { (s.monitor.processBlock b).monitor with height := s.monitor.height + 1 } := by
  cases h with
  | process m goal b => exact .inr ⟨goal, b, hs, rfl, rfl⟩
  | request | start | halt => exact .inl ⟨rfl, rfl, rfl, rfl, rfl, rfl, rfl⟩
  | _ => exact .inl ⟨rfl, rfl, .refl _⟩

/-- What has become of a monitor through the blocks that were processed since: their heights follow
one another without a gap from the first one on, and they are all that was done. -/
structure Gapless (m : Monitor) (es : List Event) (t : Moment) : Prop where
  within : t.Within
  height_le : m.height ≤ t.monitor.height
  heights : (es.filterMap Event.processed?).map Prod.fst = heights m.height t.monitor.height
  work : SameWork t.monitor (m.processAll ((es.filterMap Event.processed?).map Prod.snd))

theorem Gapless.step {m : Monitor} (h : Gapless m es t) (hstep : Step t e u) :
    Gapless m (es ++ [e]) u := by
  obtain ⟨hwithin, hle, hheights, hwork⟩ := h
  rcases hstep.effect hwithin with ⟨hnone, hheight, hsame⟩ | ⟨goal, b, hlt, hsome, hnext⟩
  · have hevents : (es ++ [e]).filterMap Event.processed? = es.filterMap Event.processed? :=
      filterMap_concat_none hnone
    refine ⟨hstep.within hwithin, ?_, ?_, ?_⟩
    · rw [hheight]
      exact hle
    · rw [hheight, hevents]
      exact hheights
    · rw [hevents]
      exact hsame.trans hwork
  · have hevents : (es ++ [e]).filterMap Event.processed? =
        es.filterMap Event.processed? ++ [(t.monitor.height + 1, b)] :=
      filterMap_concat_some hsome
    have hup : t.monitor.height ≤ t.monitor.height + 1 := by
      rw [UInt64.le_iff_toNat_le, toNat_succ hlt]
      exact Nat.le_succ _
    have hheight : u.monitor.height = t.monitor.height + 1 := by rw [hnext]
    refine ⟨hstep.within hwithin, ?_, ?_, ?_⟩
    · rw [hheight]
      exact UInt64.le_trans hle hup
    · rw [hheight, hevents, List.map_append, hheights, ← heights_append hle hup, heights_succ hlt]
      rfl
    · rw [hevents, List.map_append, processAll_append]
      have hblock : SameWork u.monitor (t.monitor.processBlock b).monitor := by
        rw [hnext]
        exact ⟨rfl, rfl, rfl, rfl, rfl⟩
      exact hblock.trans (hwork.processBlock b)

/-- However many runs there were, the blocks were processed at the heights that follow the first one,
each once and in order. -/
theorem Executes.gapless {m : Monitor} (h : Executes ⟨m, .outside⟩ es t) : Gapless m es t := by
  refine h.invariant ?_ fun ih hstep => ih.step hstep
  exact ⟨trivial, UInt64.le_refl _, (heights_self _).symm, .refl m⟩

end Registrar.Monitor.Loop
