import Mathlib
import Registrar.Proofs.Mailbox.Precedence

/-!
# Independent attempts

Attempts are independent when no two of them are for one address, and no two for one raw name. What
each of them comes to is then settled before any of them is made, since none takes what another one
asks for. So the same ones are accepted in whatever order they are made, and a registry tells by no
answer in which order that was.

Raw names are compared as bytes. Two of them that are no text may have the same text all the same,
with their ill-formed parts replaced; but neither is accepted, so neither takes that text.
-/

namespace Registrar.Mailbox

/-- Whether two attempts are for two addresses and for two raw names. -/
def Attempt.Apart (a b : Attempt) : Prop :=
  a.address ≠ b.address ∧ a.name ≠ b.name

theorem Attempt.Apart.symm {a b : Attempt} (h : a.Apart b) : b.Apart a :=
  ⟨h.1.symm, h.2.symm⟩

instance : DecidableRel Attempt.Apart := fun a b =>
  inferInstanceAs (Decidable (a.address ≠ b.address ∧ a.name ≠ b.name))

/-- Whether no two attempts are for one address, and no two for one raw name. -/
def Independent (as : List Attempt) : Prop :=
  as.Pairwise Attempt.Apart

instance : DecidablePred Independent := fun as =>
  inferInstanceAs (Decidable (as.Pairwise Attempt.Apart))

/-- Independent attempts stay so in another order. -/
theorem Independent.perm {as bs : List Attempt} (h : Independent as) (hperm : as.Perm bs) :
    Independent bs :=
  hperm.pairwise h Attempt.Apart.symm

/-! ## What independent attempts come to -/

/-- The verdict on an attempt does not see an accepted one that it stands apart from. -/
theorem verdict_concat_of_apart (accepted : List Attempt) {a b : Attempt} (h : a.Apart b) :
    verdict (accepted ++ [b]) a = verdict accepted a := by
  have hnew {κ : Type} (key : Attempt → κ) (hkey : key a ≠ key b) :
      key a ∈ (accepted ++ [b]).map key ↔ key a ∈ accepted.map key := by
    rw [List.map_append, List.mem_append, List.map_singleton, List.mem_singleton]
    exact or_iff_left hkey
  unfold verdict
  rw [if_congr (hnew Attempt.address h.1) rfl rfl, if_congr (hnew Attempt.name h.2) rfl rfl]

namespace Records

variable {r : Registry} {accepted : List Attempt}

/-- An attempt comes to the same before and after one that it stands apart from. -/
theorem outcome_enroll (h : Records r accepted) {a b : Attempt} (hapart : a.Apart b) :
    (r.enroll b).outcome a = r.outcome a := by
  rw [(h.enroll b).outcome_eq, h.outcome_eq a]
  split
  · exact verdict_concat_of_apart accepted hapart
  · rw [List.append_nil]

/-- When its turn comes, an attempt comes to what it would have come to before attempts that it
stands apart from. -/
theorem outcome_enrollAll (h : Records r accepted) {before : List Attempt} {a : Attempt}
    (hapart : ∀ b ∈ before, a.Apart b) : (r.enrollAll before).outcome a = r.outcome a := by
  induction before generalizing r accepted with
  | nil => rfl
  | cons b before ih =>
    rw [List.forall_mem_cons] at hapart
    rw [Registry.enrollAll_cons, ih (h.enroll b) hapart.2, h.outcome_enroll hapart.1]

/-- Of independent attempts those are accepted that would be so if each was made alone. -/
theorem accepted_eq_filter (h : Records r accepted) {as : List Attempt}
    (hindependent : Independent as) :
    r.accepted as = as.filter fun a => (r.outcome a).isRegistered := by
  induction as generalizing r accepted with
  | nil => rfl
  | cons a as ih =>
    obtain ⟨hapart, hrest⟩ := List.pairwise_cons.mp hindependent
    have hsame : ∀ b ∈ as,
        ((r.enroll a).outcome b).isRegistered = (r.outcome b).isRegistered := by
      intro b hb
      rw [h.outcome_enroll (hapart b hb).symm]
    rw [Registry.accepted, ih (h.enroll a) hrest, List.filter_congr hsame, List.filter_cons]

end Records

/-! ## Registries with the same contents -/

/-- Whether two registries hold the same mailboxes, whatever is asked of them. -/
structure SameContents (r s : Registry) : Prop where
  ofAddress : ∀ address, r.ofAddress? address = s.ofAddress? address
  ofName : ∀ name, r.ofName? name = s.ofName? name
  count : r.count = s.count
  boxes : r.boxes = s.boxes

/-- The look-ups tell the rest: the count is the size of the map of the addresses, and the list is in
the order of the map of the names. -/
theorem SameContents.of_lookups {r s : Registry}
    (haddress : ∀ address, r.ofAddress? address = s.ofAddress? address)
    (hname : ∀ name, r.ofName? name = s.ofName? name) : SameContents r s where
  ofAddress := haddress
  ofName := hname
  count := (Std.TreeMap.Equiv.of_forall_constGet?_eq haddress).size_eq
  boxes := congrArg (List.map Prod.snd)
    (Std.TreeMap.Equiv.of_forall_constGet?_eq hname).toList_eq

/-- The order in which attempts were accepted is not part of what a registry holds. -/
theorem Records.sameContents {r s : Registry} {as bs : List Attempt} (hr : Records r as)
    (hs : Records s bs) (hperm : as.Perm bs) : SameContents r s := by
  apply SameContents.of_lookups
  · intro address
    apply Option.ext
    intro box
    rw [hr.ofAddress, hs.ofAddress]
    simp only [hperm.mem_iff]
  · intro name
    apply Option.ext
    intro box
    rw [hr.ofName, hs.ofName]
    simp only [hperm.mem_iff]

/-- **Independent attempts commute.** However a registry was used before, attempts of which no two
are for one address and no two for one raw name may be made in any order: each comes to the same
when its turn comes, and the registry holds the same mailboxes afterwards. -/
theorem independent_attempts_commute (actions : List Action) {as bs : List Attempt}
    (hindependent : Independent as) (hperm : as.Perm bs) :
    let r := actions.foldl Registry.act .empty
    (∀ a before after before' after', as = before ++ a :: after → bs = before' ++ a :: after' →
      (r.enrollAll before).outcome a = (r.enrollAll before').outcome a) ∧
    SameContents (r.enrollAll as) (r.enrollAll bs) := by
  intro r
  have h : Records r (Registry.empty.acceptedBy actions) := Records.ofActions actions
  have hother : Independent bs := hindependent.perm hperm
  have hturn {a : Attempt} {before after : List Attempt}
      (hsplit : Independent (before ++ a :: after)) :
      (r.enrollAll before).outcome a = r.outcome a := by
    apply h.outcome_enrollAll
    intro b hb
    exact ((List.pairwise_append.mp hsplit).2.2 b hb a List.mem_cons_self).symm
  constructor
  · rintro a before after before' after' rfl rfl
    rw [hturn hindependent, hturn hother]
  · apply (h.enrollAll as).sameContents (h.enrollAll bs)
    rw [h.accepted_eq_filter hindependent, h.accepted_eq_filter hother]
    exact (hperm.filter _).append_left _

/-- An address that is told apart by its first byte. -/
def addressOf (first : UInt8) : ScriptHash :=
  ⟨first :: List.replicate 19 0, rfl⟩

/-- A taken name, two names that are no text and have the same text, and a name that is free. -/
def latecomers : List Attempt :=
  [⟨addressOf 1, Text.Utf8.encode "alice"⟩, ⟨addressOf 2, [0xFE]⟩, ⟨addressOf 3, [0xFF]⟩,
    ⟨addressOf 4, Text.Utf8.encode "bobby"⟩]

/-- Of the latecomers only the last is accepted, also when they come the other way round. -/
theorem independent_attempts_commute_reversed :
    let r := [Action.register ScriptHash.zero (Text.Utf8.encode "alice")].foldl Registry.act .empty
    Text.Utf8.decodeLossy [0xFE] = Text.Utf8.decodeLossy [0xFF] ∧
    Independent latecomers ∧ latecomers.Perm latecomers.reverse ∧
    r.accepted latecomers.reverse = latecomers.drop 3 ∧
    SameContents (r.enrollAll latecomers) (r.enrollAll latecomers.reverse) := by
  intro r
  have hindependent : Independent latecomers := by decide +kernel
  have hperm : latecomers.Perm latecomers.reverse := (List.reverse_perm latecomers).symm
  refine ⟨by decide +kernel, hindependent, hperm, by decide +kernel, ?_⟩
  exact (independent_attempts_commute _ hindependent hperm).2

end Registrar.Mailbox
