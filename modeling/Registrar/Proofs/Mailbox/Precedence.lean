import Mathlib
import Registrar.Proofs.Mailbox.Record

/-!
# First come, first served

What an attempt comes to depends on nothing but the attempts that were accepted before it, compared
by their addresses and by their raw names. Both look-ups find exactly what was accepted, a refused
attempt changes nothing, and what was accepted once stays where it is whatever follows.
-/

namespace Registrar.Mailbox

/-- A mailbox as it was asked for: the address and the bytes of the name. -/
def Box.attempt (box : Box) : Attempt :=
  ⟨box.address, Text.Utf8.encode box.name⟩

/-- The mailbox of a name is the one that was asked for. -/
theorem Attempt.attempt_box {a : Attempt} (h : IsName a.name) : a.box.attempt = a := by
  unfold Attempt.box Box.attempt
  rw [h.encode_decodeLossy]

theorem Box.attempt_inj {box other : Box} (h : box.attempt = other.attempt) : box = other := by
  unfold Box.attempt at h
  injection h with haddress hname
  cases box
  cases other
  simp only [Box.mk.injEq]
  exact ⟨Text.Utf8.encode_inj.mp hname, haddress⟩

namespace Registry

/-- The calls that were accepted while a registry was used, in their order. -/
def acceptedBy (r : Registry) (actions : List Action) : List Attempt :=
  r.accepted (actions.filterMap Action.attempt?)

end Registry

namespace Records

variable {r : Registry} {accepted : List Attempt}

/-- The record of a registry that was used from its beginning on. -/
theorem ofActions (actions : List Action) :
    Records (actions.foldl Registry.act .empty) (Registry.empty.acceptedBy actions) := by
  rw [Registry.foldl_act]
  exact ofAttempts _

/-- An address finds the accepted attempt for it. -/
theorem ofAddress_iff (h : Records r accepted) (address : ScriptHash) (box : Box) :
    r.ofAddress? address = some box ↔ box.attempt ∈ accepted ∧ box.address = address := by
  rw [h.ofAddress]
  constructor
  · rintro ⟨a, ha, haddress, rfl⟩
    rw [Attempt.attempt_box (h.names a ha)]
    exact ⟨ha, haddress⟩
  · rintro ⟨hbox, haddress⟩
    refine ⟨box.attempt, hbox, haddress, ?_⟩
    exact Box.attempt_inj (Attempt.attempt_box (h.names _ hbox))

/-- A name finds the accepted attempt of just these bytes. -/
theorem ofName_iff (h : Records r accepted) (name : String) (box : Box) :
    r.ofName? name = some box ↔ box.attempt ∈ accepted ∧ box.name = name := by
  rw [h.ofName]
  constructor
  · rintro ⟨a, ha, hname, rfl⟩
    rw [Attempt.attempt_box (h.names a ha)]
    exact ⟨ha, hname⟩
  · rintro ⟨hbox, hname⟩
    have hsame : box.attempt.box = box :=
      Box.attempt_inj (Attempt.attempt_box (h.names _ hbox))
    refine ⟨box.attempt, hbox, ?_, hsame⟩
    rw [hsame]
    exact hname

end Records

/-- **First come, first served.** Whatever was done with a registry before, an attempt comes to what
the calls accepted so far say of it, and asking beforehand gives the same answer. Both look-ups find
the accepted calls and no others, a refused attempt leaves the registry as it is, and what is found
once is found for ever. -/
theorem first_come_first_served (before after : List Action) (a : Attempt) :
    let r := before.foldl Registry.act .empty
    let accepted := Registry.empty.acceptedBy before
    (r.register a.address a.name).1 = verdict accepted a
      ∧ r.evaluate a.address a.name = verdict accepted a
      ∧ (verdict accepted a ≠ .registered → (r.register a.address a.name).2 = r)
      ∧ (∀ address box, r.ofAddress? address = some box ↔
          box.attempt ∈ accepted ∧ box.address = address)
      ∧ (∀ name box, r.ofName? name = some box ↔ box.attempt ∈ accepted ∧ box.name = name)
      ∧ (accepted.Pairwise fun e f => e.address ≠ f.address ∧ e.name ≠ f.name)
      ∧ (∀ address box, r.ofAddress? address = some box →
          (after.foldl Registry.act r).ofAddress? address = some box)
      ∧ (∀ name box, r.ofName? name = some box →
          (after.foldl Registry.act r).ofName? name = some box) := by
  intro r accepted
  have h : Records r accepted := Records.ofActions before
  have hlater : Records (after.foldl Registry.act r)
      (accepted ++ r.accepted (after.filterMap Action.attempt?)) := by
    rw [Registry.foldl_act]
    exact h.enrollAll _
  refine ⟨h.outcome_eq a, ?_, ?_, h.ofAddress_iff, h.ofName_iff, ?_, ?_, ?_⟩
  · rw [← Registry.outcome_eq_evaluate]
    exact h.outcome_eq a
  · intro hrefused
    rw [← h.outcome_eq] at hrefused
    exact Registry.enroll_of_ne hrefused
  · exact (List.pairwise_map.mp h.nodup_address).and (List.pairwise_map.mp h.nodup_name)
  · intro address box hbox
    obtain ⟨hmem, haddress⟩ := (h.ofAddress_iff address box).mp hbox
    exact (hlater.ofAddress_iff address box).mpr ⟨List.mem_append_left _ hmem, haddress⟩
  · intro name box hbox
    obtain ⟨hmem, hname⟩ := (h.ofName_iff name box).mp hbox
    exact (hlater.ofName_iff name box).mpr ⟨List.mem_append_left _ hmem, hname⟩

end Registrar.Mailbox
