import Mathlib
import Registrar.Monitor.Loop

/-!
# Events in a row

Executions compose and can be cut at any point. What holds at the start and is kept by each step holds
wherever an execution ends.
-/

namespace Registrar.Monitor.Loop

variable {s t u : Moment} {e : Event} {es fs : List Event}

theorem executes_nil_iff : Executes s [] t ↔ t = s := by
  constructor
  · intro h
    cases h
    rfl
  · rintro rfl
    exact .nil t

theorem executes_cons_iff : Executes s (e :: es) u ↔ ∃ t, Step s e t ∧ Executes t es u := by
  constructor
  · intro h
    cases h with
    | cons hstep hrest => exact ⟨_, hstep, hrest⟩
  · rintro ⟨t, hstep, hrest⟩
    exact .cons hstep hrest

/-- An execution can be cut at any point. -/
theorem executes_append_iff :
    Executes s (es ++ fs) u ↔ ∃ t, Executes s es t ∧ Executes t fs u := by
  induction es generalizing s with
  | nil => simp [executes_nil_iff]
  | cons e es ih =>
    simp only [List.cons_append, executes_cons_iff, ih]
    constructor
    · rintro ⟨t, hstep, m, hes, hfs⟩
      exact ⟨m, ⟨t, hstep, hes⟩, hfs⟩
    · rintro ⟨m, ⟨t, hstep, hes⟩, hfs⟩
      exact ⟨t, hstep, m, hes, hfs⟩

theorem executes_singleton_iff : Executes s [e] t ↔ Step s e t := by
  simp [executes_cons_iff, executes_nil_iff]

theorem Step.executes (h : Step s e t) : Executes s [e] t :=
  executes_singleton_iff.mpr h

theorem Executes.append (h : Executes s es t) (h' : Executes t fs u) : Executes s (es ++ fs) u :=
  executes_append_iff.mpr ⟨t, h, h'⟩

/-- What holds before anything has happened and is kept by each step holds wherever an execution
ends. It may speak of all that has happened since the start. -/
theorem Executes.invariant {motive : List Event → Moment → Prop} (start : motive [] s)
    (step : ∀ {es t e u}, motive es t → Step t e u → motive (es ++ [e]) u)
    (h : Executes s es t) : motive es t := by
  -- on the events, the last one first
  induction es using List.reverseRecOn generalizing t with
  | nil =>
    rw [executes_nil_iff] at h
    rw [h]
    exact start
  | append_singleton es e ih =>
    obtain ⟨r, hes, hlast⟩ := executes_append_iff.mp h
    exact step (ih hes) (executes_singleton_iff.mp hlast)

end Registrar.Monitor.Loop
