import Mathlib
import Registrar.Proofs.Mailbox.Record

/-!
# What attempts report, and what is refused for good

Attempts that are made one after the other report one outcome each. What was refused once is refused
ever after, though perhaps for another reason: its address or its name stays taken, and a name that
is none never becomes one. An attempt that was accepted is refused from then on. So attempts that
have all been made before change nothing when they are made again.
-/

namespace Registrar.Mailbox

namespace Registry

/-- What attempts come to when they are made one after the other. -/
def report (r : Registry) : List Attempt → List Registration
  | [] => []
  | a :: as =>
    ⟨a.address, Text.Utf8.decodeLossy a.name, r.outcome a⟩ :: (r.enroll a).report as

theorem report_append (r : Registry) (as bs : List Attempt) :
    r.report (as ++ bs) = r.report as ++ (r.enrollAll as).report bs := by
  induction as generalizing r with
  | nil => rfl
  | cons a as ih => rw [List.cons_append, report, report, ih, List.cons_append, enrollAll_cons]

/-- Each attempt is reported. -/
@[simp] theorem length_report (r : Registry) (as : List Attempt) :
    (r.report as).length = as.length := by
  induction as generalizing r with
  | nil => rfl
  | cons a as ih => rw [report, List.length_cons, List.length_cons, ih]

/-- Who asks for which name is reported whatever the registry holds. -/
theorem map_report (r : Registry) (as : List Attempt) :
    (r.report as).map (fun x => (x.address, x.name))
      = as.map fun a => (a.address, Text.Utf8.decodeLossy a.name) := by
  induction as generalizing r with
  | nil => rfl
  | cons a as ih => rw [report, List.map_cons, List.map_cons, ih]

/-- As many are reported as registered as are accepted. -/
theorem countP_report (r : Registry) (as : List Attempt) :
    (r.report as).countP (fun x => x.outcome.isRegistered) = (r.accepted as).length := by
  induction as generalizing r with
  | nil => rfl
  | cons a as ih =>
    rw [report, List.countP_cons, accepted, ih]
    split_ifs <;> rfl

/-- Whether an attempt comes to nothing. -/
def Refuses (r : Registry) (a : Attempt) : Prop :=
  r.outcome a ≠ .registered

/-- Attempts that are all refused change nothing, and none of them is reported as registered. -/
theorem enrollAll_of_refuses {r : Registry} {as : List Attempt} (h : ∀ a ∈ as, r.Refuses a) :
    r.enrollAll as = r ∧ ∀ x ∈ r.report as, x.outcome ≠ .registered := by
  induction as with
  | nil => exact ⟨rfl, by simp [report]⟩
  | cons a as ih =>
    rw [List.forall_mem_cons] at h
    have hsame : r.enroll a = r := enroll_of_ne h.1
    obtain ⟨hrest, hreport⟩ := ih h.2
    rw [enrollAll_cons, report, hsame, List.forall_mem_cons]
    exact ⟨hrest, h.1, hreport⟩

end Registry

namespace Records

variable {r : Registry} {accepted : List Attempt}

theorem refuses_iff (h : Records r accepted) (a : Attempt) :
    r.Refuses a ↔ a.address ∈ accepted.map Attempt.address ∨ a.name ∈ accepted.map Attempt.name
      ∨ ¬ IsName a.name := by
  unfold Registry.Refuses
  rw [h.outcome_eq, ne_eq, verdict_registered_iff]
  tauto

/-- What is refused stays refused. -/
theorem refuses_enrollAll (h : Records r accepted) {a : Attempt} (ha : r.Refuses a)
    (as : List Attempt) : (r.enrollAll as).Refuses a := by
  rw [(h.enrollAll as).refuses_iff, List.map_append, List.map_append, List.mem_append,
    List.mem_append]
  rcases (h.refuses_iff a).mp ha with haddress | hname | hinvalid
  · exact .inl (.inl haddress)
  · exact .inr (.inl (.inl hname))
  · exact .inr (.inr hinvalid)

/-- What has been tried is refused from then on. -/
theorem refuses_enroll (h : Records r accepted) (a : Attempt) : (r.enroll a).Refuses a := by
  by_cases ha : r.outcome a = .registered
  · -- it was accepted, so its address is taken now
    rw [(h.enroll a).refuses_iff, ha, if_pos (by rfl), List.map_append]
    exact .inl (List.mem_append_right _ (List.mem_singleton_self _))
  · rw [Registry.enroll_of_ne ha]
    exact ha

/-- However many attempts are made, each of them is refused afterwards. -/
theorem refuses_of_mem (h : Records r accepted) {as : List Attempt} {a : Attempt} (ha : a ∈ as) :
    (r.enrollAll as).Refuses a := by
  induction as generalizing r accepted with
  | nil => cases ha
  | cons b as ih =>
    rw [Registry.enrollAll_cons]
    rcases List.mem_cons.mp ha with rfl | ha
    · exact (h.enroll a).refuses_enrollAll (h.refuses_enroll a) as
    · exact ih (h.enroll b) ha

/-- The registry counts what was accepted. -/
theorem count_eq (h : Records r accepted) : r.count = accepted.length :=
  h.size_byAddress

end Records

end Registrar.Mailbox
