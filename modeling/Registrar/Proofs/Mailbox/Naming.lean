import Mathlib
import Registrar.Proofs.Mailbox.Consistency
import Registrar.Proofs.Mailbox.Precedence

/-!
# Names that cannot be confused

Whether a name is taken is asked of its text, in which each ill-formed part is replaced, so many raw
names have one text. Yet none of them is taken for the name of a mailbox: that name is plain ASCII, and
the lossy reading gives such a text for its own bytes alone. So a crafted name neither blocks another
one nor passes for it, and a name that is reported as registered or as taken is the raw name itself.
-/

namespace Registrar.Mailbox

open Contract (Call)

/-! ## Calls that are reported -/

/-- A call is an attempt if it is of the right method and its two arguments are an address and a
name. -/
theorem attempt?_eq_some_iff {method : String} {args : List (List UInt8)} {a : Attempt} :
    attempt? method args = some a ↔
      method = registerMethod ∧ args = [a.address.bytes, a.name] := by
  constructor
  · intro h
    unfold attempt? at h
    split_ifs at h with hmethod
    split at h
    · next address name =>
      split_ifs at h
      cases h
      exact ⟨hmethod, rfl⟩
    · cases h
  · rintro ⟨rfl, rfl⟩
    unfold attempt?
    rw [if_pos rfl]
    exact dif_pos a.address.length_bytes

/-- Of a call that is an attempt, just that is reported what it comes to. -/
theorem dispatch_of_attempt (r : Registry) {call : Call} {a : Attempt}
    (h : attempt? call.method call.args = some a) :
    (r.dispatch call).1.registration?
        = some ⟨a.address, Text.Utf8.decodeLossy a.name, r.outcome a⟩ ∧
      (r.dispatch call).2 = r.enroll a := by
  obtain ⟨hreported, hafter⟩ := dispatch_spec r call
  rw [hreported, hafter, h]
  exact ⟨rfl, rfl⟩

/-- Any other call is not reported and changes nothing. -/
theorem dispatch_of_no_attempt (r : Registry) {call : Call}
    (h : attempt? call.method call.args = none) :
    (r.dispatch call).1.registration? = none ∧ (r.dispatch call).2 = r := by
  obtain ⟨hreported, hafter⟩ := dispatch_spec r call
  rw [hreported, hafter, h]
  exact ⟨rfl, rfl⟩

/-- A call is reported just if it registers, with an address of twenty bytes and one more argument. -/
theorem isSome_registration_iff (r : Registry) (call : Call) :
    (r.dispatch call).1.registration?.isSome ↔ call.method = registerMethod ∧
      ∃ address name, call.args = [address, name] ∧ address.length = 20 := by
  constructor
  · intro hsome
    cases hattempt : attempt? call.method call.args with
    | none =>
      rw [(dispatch_of_no_attempt r hattempt).1] at hsome
      cases hsome
    | some a =>
      obtain ⟨hmethod, hargs⟩ := attempt?_eq_some_iff.mp hattempt
      exact ⟨hmethod, _, _, hargs, a.address.length_bytes⟩
  · rintro ⟨hmethod, address, name, hargs, hlength⟩
    have hattempt := attempt?_eq_some_iff (a := ⟨⟨address, hlength⟩, name⟩).mpr ⟨hmethod, hargs⟩
    rw [(dispatch_of_attempt r hattempt).1]
    rfl

/-! ## Raw names and the names of mailboxes -/

namespace Records

variable {r : Registry} {accepted : List Attempt}

/-- A raw name has the text of a mailbox's name if it is just the bytes of that name. -/
theorem decodeLossy_eq_iff (h : Records r accepted) {box : Box} (hbox : box ∈ r.boxes)
    (name : List UInt8) :
    Text.Utf8.decodeLossy name = box.name ↔ name = Text.Utf8.encode box.name := by
  obtain ⟨a, ha, rfl⟩ := h.mem_boxes.mp hbox
  have hname : IsName a.name := h.names a ha
  show Text.Utf8.decodeLossy name = Text.Utf8.decodeLossy a.name
    ↔ name = Text.Utf8.encode (Text.Utf8.decodeLossy a.name)
  rw [hname.encode_decodeLossy]
  exact Text.Utf8.decodeLossy_eq_ascii_iff hname.ascii

/-- A name that was registered just now, or was taken before, is in the record. -/
theorem exists_of_outcome (h : Records r accepted) {a : Attempt}
    (ha : r.outcome a = .registered ∨ r.outcome a = .nameTaken) :
    ∃ b ∈ accepted ++ (if (r.outcome a).isRegistered then [a] else []),
      b.name = a.name ∧ (r.outcome a = .registered → b = a) := by
  rcases ha with hregistered | htaken
  · rw [hregistered]
    exact ⟨a, List.mem_append_right _ (List.mem_singleton_self a), rfl, fun _ => rfl⟩
  · have hverdict : verdict accepted a = .nameTaken := by
      rw [← h.outcome_eq]
      exact htaken
    have hmem : a.name ∈ accepted.map Attempt.name := by
      unfold verdict at hverdict
      split_ifs at hverdict with _ hname
      exact hname
    obtain ⟨b, hb, hname⟩ := List.mem_map.mp hmem
    rw [htaken]
    exact ⟨b, List.mem_append_left _ hb, hname, nofun⟩

/-- A name that was registered just now, or was taken before, is its own text, and a mailbox is found
under it. -/
theorem named_of_outcome (h : Records r accepted) {a : Attempt}
    (ha : r.outcome a = .registered ∨ r.outcome a = .nameTaken) :
    Text.Utf8.encode (Text.Utf8.decodeLossy a.name) = a.name ∧
    ∃ box, (r.enroll a).ofName? (Text.Utf8.decodeLossy a.name) = some box ∧
      box.name = Text.Utf8.decodeLossy a.name ∧
      (r.outcome a = .registered → box.address = a.address) := by
  obtain ⟨b, hb, hname, hsame⟩ := h.exists_of_outcome ha
  have hafter := h.enroll a
  rw [← hname]
  refine ⟨(hafter.names b hb).encode_decodeLossy, b.box, hafter.ofName_of_mem hb, rfl, ?_⟩
  intro hregistered
  rw [hsame hregistered]
  rfl

end Records

/-- **The lossy reading confuses no names.** However a registry was used, a call is reported just if
it registers, with an address of twenty bytes and one more argument; one that is not reported, or not
as registered, leaves the registry as it is. Whatever the bytes of a raw name, its text is the name of
a mailbox if they are the bytes of that name and not otherwise. And if the name of a call is reported
as registered or as taken, it is the second argument byte for byte, and a mailbox is found under it:
the caller's own if it is reported as registered. -/
theorem names_never_confused (actions : List Action) (call : Call) :
    let r := actions.foldl Registry.act .empty
    let reported := (r.dispatch call).1.registration?
    let after := (r.dispatch call).2
    (reported.isSome ↔ call.method = "registerMailbox" ∧
      ∃ address name, call.args = [address, name] ∧ address.length = 20) ∧
    (reported = none → after = r) ∧
    (∀ x, reported = some x → x.outcome ≠ .registered → after = r) ∧
    (∀ box ∈ r.boxes, ∀ name : List UInt8,
      Text.Utf8.decodeLossy name = box.name ↔ name = Text.Utf8.encode box.name) ∧
    (∀ x, reported = some x → x.outcome = .registered ∨ x.outcome = .nameTaken →
      call.args = [x.address.bytes, Text.Utf8.encode x.name] ∧
      ∃ box, after.ofName? x.name = some box ∧ box.name = x.name ∧
        (x.outcome = .registered → box.address = x.address)) := by
  intro r reported after
  have h : Records r (Registry.empty.acceptedBy actions) := Records.ofActions actions
  have htexts (box : Box) (hbox : box ∈ r.boxes) (name : List UInt8) :
      Text.Utf8.decodeLossy name = box.name ↔ name = Text.Utf8.encode box.name :=
    h.decodeLossy_eq_iff hbox name
  refine ⟨isSome_registration_iff r call, ?_⟩
  cases hattempt : attempt? call.method call.args with
  | none =>
    obtain ⟨hreported, hafter⟩ := dispatch_of_no_attempt r hattempt
    have hnone : reported = none := hreported
    rw [hnone]
    exact ⟨fun _ => hafter, nofun, htexts, nofun⟩
  | some a =>
    obtain ⟨hreported, hafter⟩ := dispatch_of_attempt r hattempt
    have hsome : reported = some ⟨a.address, Text.Utf8.decodeLossy a.name, r.outcome a⟩ := hreported
    have hsame : after = r.enroll a := hafter
    rw [hsome, hsame]
    refine ⟨nofun, ?_, htexts, ?_⟩
    · rintro x ⟨⟩ hrefused
      exact Registry.enroll_of_ne hrefused
    · rintro x ⟨⟩ houtcome
      obtain ⟨hname, hfound⟩ := h.named_of_outcome houtcome
      refine ⟨?_, hfound⟩
      rw [hname]
      exact (attempt?_eq_some_iff.mp hattempt).2

/-- The overlong form of a letter is no letter. -/
example : Text.Utf8.decodeLossy [0x61, 0x6C, 0x69, 0x63, 0xC1, 0xA5] ≠ "alice" := by
  decide +kernel

end Registrar.Mailbox
