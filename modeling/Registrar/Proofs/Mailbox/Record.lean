import Mathlib
import Registrar.Proofs.Mailbox.Attempt
import Registrar.Proofs.ScriptHash

/-!
# The record behind a registry

A registry holds two maps, but all that it knows is which attempts were accepted. `Records r accepted`
says that both maps of `r` are look-ups in the list `accepted`: one by address, one by name. The
relation holds of the empty registry and the empty list, and an attempt keeps it: an accepted one is
written at the end of the list, any other leaves both sides alone. What an attempt comes to can then
be read off the list, where names are the raw bytes and not their text.
-/

namespace Registrar.Mailbox

namespace Registry

/-! ## Look-ups after an insertion -/

@[simp] theorem ofAddress?_empty (address : ScriptHash) : empty.ofAddress? address = none := by
  unfold ofAddress? empty
  rw [Std.TreeMap.get?_eq_getElem?]
  exact Std.TreeMap.getElem?_emptyc

@[simp] theorem ofName?_empty (name : String) : empty.ofName? name = none := by
  unfold ofName? empty
  rw [Std.TreeMap.get?_eq_getElem?]
  exact Std.TreeMap.getElem?_emptyc

theorem ofAddress?_insert (r : Registry) (box : Box) (address : ScriptHash) :
    (r.insert box).ofAddress? address =
      if box.address = address then some box else r.ofAddress? address := by
  unfold ofAddress? insert
  simp only [Std.TreeMap.get?_eq_getElem?, Std.TreeMap.getElem?_insert,
    Std.LawfulEqCmp.compare_eq_iff_eq]

theorem ofName?_insert (r : Registry) (box : Box) (name : String) :
    (r.insert box).ofName? name = if box.name = name then some box else r.ofName? name := by
  unfold ofName? insert
  simp only [Std.TreeMap.get?_eq_getElem?, Std.TreeMap.getElem?_insert,
    Std.LawfulEqCmp.compare_eq_iff_eq]

/-- A mailbox at a new address makes the map of the addresses larger by one. -/
theorem size_byAddress_insert {r : Registry} {box : Box} (h : r.ofAddress? box.address = none) :
    (r.insert box).byAddress.size = r.byAddress.size + 1 := by
  unfold ofAddress? at h
  rw [Std.TreeMap.get?_eq_getElem?] at h
  unfold insert
  rw [Std.TreeMap.size_insert, Std.TreeMap.contains_eq_isSome_getElem?, h]
  rfl

/-- A mailbox with a new name makes the map of the names larger by one. -/
theorem size_byName_insert {r : Registry} {box : Box} (h : r.ofName? box.name = none) :
    (r.insert box).byName.size = r.byName.size + 1 := by
  unfold ofName? at h
  rw [Std.TreeMap.get?_eq_getElem?] at h
  unfold insert
  rw [Std.TreeMap.size_insert, Std.TreeMap.contains_eq_isSome_getElem?, h]
  rfl

end Registry

/-! ## The verdict on an attempt -/

/-- What an attempt comes to when these were accepted before it: the address is asked first, then
the raw name, and then whether the name is one at all. -/
def verdict (accepted : List Attempt) (a : Attempt) : Outcome :=
  if a.address ∈ accepted.map Attempt.address then .addressTaken
  else if a.name ∈ accepted.map Attempt.name then .nameTaken
  else if IsName a.name then .registered
  else .invalidName

theorem verdict_registered_iff {accepted : List Attempt} {a : Attempt} :
    verdict accepted a = .registered ↔
      a.address ∉ accepted.map Attempt.address ∧ a.name ∉ accepted.map Attempt.name
        ∧ IsName a.name := by
  unfold verdict
  split_ifs <;> simp_all

/-- The two maps of a registry are look-ups in a list of accepted attempts, in which no address and
no name stands twice. -/
structure Records (r : Registry) (accepted : List Attempt) : Prop where
  names : ∀ a ∈ accepted, IsName a.name
  nodup_address : (accepted.map Attempt.address).Nodup
  nodup_name : (accepted.map Attempt.name).Nodup
  ofAddress : ∀ address box, r.ofAddress? address = some box ↔
    ∃ a ∈ accepted, a.address = address ∧ a.box = box
  ofName : ∀ name box, r.ofName? name = some box ↔
    ∃ a ∈ accepted, a.box.name = name ∧ a.box = box
  size_byAddress : r.byAddress.size = accepted.length
  size_byName : r.byName.size = accepted.length

namespace Records

variable {r : Registry} {accepted : List Attempt}

/-- The empty registry has accepted nothing. -/
theorem empty : Records .empty [] where
  names := by simp
  nodup_address := List.nodup_nil
  nodup_name := List.nodup_nil
  ofAddress := by simp
  ofName := by simp
  size_byAddress := rfl
  size_byName := rfl

/-- An address has a mailbox if an attempt for it was accepted. -/
theorem isSome_ofAddress (h : Records r accepted) (address : ScriptHash) :
    (r.ofAddress? address).isSome ↔ address ∈ accepted.map Attempt.address := by
  rw [Option.isSome_iff_exists, List.mem_map]
  constructor
  · rintro ⟨box, hbox⟩
    obtain ⟨a, ha, haddress, _⟩ := (h.ofAddress address box).mp hbox
    exact ⟨a, ha, haddress⟩
  · rintro ⟨a, ha, haddress⟩
    exact ⟨a.box, (h.ofAddress address a.box).mpr ⟨a, ha, haddress, rfl⟩⟩

/-- The lossy text of a raw name is taken if just these bytes were accepted as a name: what was
accepted is plain ASCII, which the lossy reading takes for nothing else. -/
theorem isSome_ofName (h : Records r accepted) (name : List UInt8) :
    (r.ofName? (Text.Utf8.decodeLossy name)).isSome ↔ name ∈ accepted.map Attempt.name := by
  rw [Option.isSome_iff_exists, List.mem_map]
  constructor
  · rintro ⟨box, hbox⟩
    obtain ⟨a, ha, hname, _⟩ := (h.ofName _ box).mp hbox
    exact ⟨a, ha, ((Text.Utf8.decodeLossy_eq_ascii_iff (h.names a ha).ascii).mp hname.symm).symm⟩
  · rintro ⟨a, ha, rfl⟩
    exact ⟨a.box, (h.ofName _ a.box).mpr ⟨a, ha, rfl, rfl⟩⟩

/-- The registry answers an attempt by the list. -/
theorem outcome_eq (h : Records r accepted) (a : Attempt) : r.outcome a = verdict accepted a := by
  rw [Registry.outcome_eq_evaluate]
  unfold Registry.evaluate verdict
  simp only [h.isSome_ofAddress, h.isSome_ofName, Bool.not_eq_true', ← Bool.not_eq_true,
    isValidName_iff]
  split_ifs <;> rfl

/-- A look-up by a key that is free stays a look-up when the mailbox of that key is added. -/
theorem lookup_concat {κ : Type} [DecidableEq κ] (key : Attempt → κ) {look : κ → Option Box}
    {accepted : List Attempt} {a : Attempt}
    (h : ∀ k box, look k = some box ↔ ∃ e ∈ accepted, key e = k ∧ e.box = box)
    (hfree : look (key a) = none) (k : κ) (box : Box) :
    (if key a = k then some a.box else look k) = some box ↔
      ∃ e ∈ accepted ++ [a], key e = k ∧ e.box = box := by
  by_cases hk : key a = k
  · subst hk
    rw [if_pos rfl]
    constructor
    · intro heq
      exact ⟨a, by simp, rfl, Option.some.inj heq⟩
    · rintro ⟨e, he, hkey, rfl⟩
      rcases List.mem_append.mp he with he | he
      · -- An earlier attempt with this key would have taken it.
        rw [(h (key a) e.box).mpr ⟨e, he, hkey, rfl⟩] at hfree
        cases hfree
      · rw [List.mem_singleton.mp he]
  · rw [if_neg hk, h]
    constructor
    · rintro ⟨e, he, hkey⟩
      exact ⟨e, List.mem_append_left _ he, hkey⟩
    · rintro ⟨e, he, hkey, hbox⟩
      rcases List.mem_append.mp he with he | he
      · exact ⟨e, he, hkey, hbox⟩
      · rw [List.mem_singleton.mp he] at hkey
        exact absurd hkey hk

/-- An accepted attempt is written at the end of the list. -/
theorem insert (h : Records r accepted) {a : Attempt} (ha : verdict accepted a = .registered) :
    Records (r.insert a.box) (accepted ++ [a]) := by
  obtain ⟨hnewaddress, hnewname, hname⟩ := verdict_registered_iff.mp ha
  have hnoaddress : r.ofAddress? a.box.address = none := by
    rw [← Option.not_isSome_iff_eq_none, h.isSome_ofAddress]
    exact hnewaddress
  have hnoname : r.ofName? a.box.name = none := by
    rw [← Option.not_isSome_iff_eq_none]
    exact fun hsome => hnewname ((h.isSome_ofName a.name).mp hsome)
  refine
    { names := ?_, nodup_address := ?_, nodup_name := ?_, ofAddress := ?_, ofName := ?_,
      size_byAddress := ?_, size_byName := ?_ }
  · intro b hb
    rcases List.mem_append.mp hb with hb | hb
    · exact h.names b hb
    · rw [List.mem_singleton.mp hb]
      exact hname
  · rw [List.map_append, List.nodup_append_comm]
    exact List.nodup_cons.mpr ⟨hnewaddress, h.nodup_address⟩
  · rw [List.map_append, List.nodup_append_comm]
    exact List.nodup_cons.mpr ⟨hnewname, h.nodup_name⟩
  · intro address box
    rw [Registry.ofAddress?_insert]
    exact lookup_concat Attempt.address h.ofAddress hnoaddress address box
  · intro name box
    rw [Registry.ofName?_insert]
    exact lookup_concat (fun a => a.box.name) h.ofName hnoname name box
  · rw [Registry.size_byAddress_insert hnoaddress, h.size_byAddress, List.length_append]
    rfl
  · rw [Registry.size_byName_insert hnoname, h.size_byName, List.length_append]
    rfl

end Records

/-! ## Many attempts -/

/-- The attempts that a registry accepts when they are made one after the other. -/
def Registry.accepted (r : Registry) : List Attempt → List Attempt
  | [] => []
  | a :: as =>
    if (r.outcome a).isRegistered then a :: (r.enroll a).accepted as else (r.enroll a).accepted as

namespace Records

variable {r : Registry} {accepted : List Attempt}

/-- One attempt keeps the record. -/
theorem enroll (h : Records r accepted) (a : Attempt) :
    Records (r.enroll a) (accepted ++ if (r.outcome a).isRegistered then [a] else []) := by
  unfold Outcome.isRegistered
  by_cases ha : r.outcome a = .registered
  · rw [Registry.enroll_of_eq ha, decide_eq_true ha, if_pos rfl]
    rw [h.outcome_eq] at ha
    exact h.insert ha
  · rw [Registry.enroll_of_ne ha, decide_eq_false ha, if_neg Bool.false_ne_true, List.append_nil]
    exact h

/-- Any number of attempts keeps the record. -/
theorem enrollAll (h : Records r accepted) (as : List Attempt) :
    Records (r.enrollAll as) (accepted ++ r.accepted as) := by
  induction as generalizing r accepted with
  | nil =>
    rw [Registry.accepted, List.append_nil]
    exact h
  | cons a as ih =>
    have hnext := ih (h.enroll a)
    rw [Registry.enrollAll_cons, Registry.accepted]
    split_ifs with hreg
    · rw [if_pos hreg, List.append_assoc] at hnext
      exact hnext
    · rw [if_neg hreg, List.append_nil] at hnext
      exact hnext

/-- What has been made of the empty registry records what was accepted. -/
theorem ofAttempts (as : List Attempt) :
    Records (Registry.empty.enrollAll as) (Registry.empty.accepted as) :=
  empty.enrollAll as

end Records

end Registrar.Mailbox
