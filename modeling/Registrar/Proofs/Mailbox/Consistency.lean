import Mathlib
import Registrar.Proofs.Mailbox.Record

/-!
# The two maps agree

The maps of a registry describe one set of mailboxes, whatever was done with the registry before.
Both are look-ups in the record of the accepted attempts, so what one of them finds the other finds
too, and both have as many entries as the record is long. The list of all mailboxes is read from the
map of the names, whose order is the order of the list.
-/

namespace Registrar.Mailbox

namespace Registry

/-- What holds of a registry whose maps agree. -/
structure Consistent (r : Registry) : Prop where
  /-- What is found at an address belongs to it, and is found by its name. -/
  ofAddress : ∀ address box, r.ofAddress? address = some box →
    box.address = address ∧ r.ofName? box.name = some box
  /-- What is found by a name has it, and is found at its address. -/
  ofName : ∀ name box, r.ofName? name = some box →
    box.name = name ∧ r.ofAddress? box.address = some box
  /-- Names are 5 to 18 bytes of `a` to `z`, `0` to `9` and `_`. -/
  names : ∀ name box, r.ofName? name = some box → IsName (Text.Utf8.encode name)
  /-- The list holds what is stored and nothing else. -/
  mem_boxes : ∀ box, box ∈ r.boxes ↔ r.ofAddress? box.address = some box
  /-- The list holds nothing twice. -/
  nodup : r.boxes.Nodup
  /-- The list is in strictly increasing order of the names. -/
  sorted : r.boxes.Pairwise fun box next => box.name < next.name
  /-- No two mailboxes share an address. -/
  address_inj : ∀ box ∈ r.boxes, ∀ other ∈ r.boxes, box.address = other.address → box = other
  /-- No two mailboxes share a name. -/
  name_inj : ∀ box ∈ r.boxes, ∀ other ∈ r.boxes, box.name = other.name → box = other
  /-- The list is as long as the count says. -/
  length_boxes : r.boxes.length = r.count
  /-- The registry is empty when the count is zero. -/
  isEmpty_iff : r.isEmpty = true ↔ r.count = 0

/-! ## The list of all mailboxes -/

/-- The list holds what the map of the names holds. -/
theorem mem_boxes_iff {r : Registry} {box : Box} :
    box ∈ r.boxes ↔ ∃ name, r.ofName? name = some box := by
  unfold boxes ofName?
  simp only [List.mem_map, Prod.exists, Std.TreeMap.get?_eq_getElem?,
    Std.TreeMap.mem_toList_iff_getElem?_eq_some, exists_eq_right]

theorem length_boxes_eq (r : Registry) : r.boxes.length = r.byName.size := by
  unfold boxes
  rw [List.length_map]
  exact Std.TreeMap.length_toList

/-- Where mailboxes stand under their own names, the list is in the order of the names. -/
theorem pairwise_boxes {r : Registry}
    (h : ∀ name box, r.ofName? name = some box → box.name = name) :
    r.boxes.Pairwise fun box next => box.name < next.name := by
  have hname (entry : String × Box) (hentry : entry ∈ r.byName.toList) :
      entry.2.name = entry.1 := by
    refine h entry.1 entry.2 ?_
    unfold ofName?
    rw [Std.TreeMap.get?_eq_getElem?]
    exact Std.TreeMap.mem_toList_iff_getElem?_eq_some.mp hentry
  unfold boxes
  rw [List.pairwise_map]
  refine Std.TreeMap.ordered_keys_toList.imp_of_mem ?_
  intro entry next hentry hnext hlt
  rw [hname entry hentry, hname next hnext]
  exact compareOfLessAndEq_eq_lt.mp hlt

end Registry

/-! ## From the record -/

namespace Records

variable {r : Registry} {accepted : List Attempt}

/-- An accepted attempt is found at its address. -/
theorem ofAddress_of_mem (h : Records r accepted) {a : Attempt} (ha : a ∈ accepted) :
    r.ofAddress? a.address = some a.box :=
  (h.ofAddress _ _).mpr ⟨a, ha, rfl, rfl⟩

/-- An accepted attempt is found by the text of its name. -/
theorem ofName_of_mem (h : Records r accepted) {a : Attempt} (ha : a ∈ accepted) :
    r.ofName? a.box.name = some a.box :=
  (h.ofName _ _).mpr ⟨a, ha, rfl, rfl⟩

/-- The list of all mailboxes holds those of the accepted attempts. -/
theorem mem_boxes (h : Records r accepted) {box : Box} :
    box ∈ r.boxes ↔ ∃ a ∈ accepted, a.box = box := by
  rw [Registry.mem_boxes_iff]
  constructor
  · rintro ⟨name, hbox⟩
    obtain ⟨a, ha, _, rfl⟩ := (h.ofName name box).mp hbox
    exact ⟨a, ha, rfl⟩
  · rintro ⟨a, ha, rfl⟩
    exact ⟨a.box.name, h.ofName_of_mem ha⟩

/-- The list of all mailboxes is in strictly increasing order of the names. -/
theorem pairwise_boxes (h : Records r accepted) :
    r.boxes.Pairwise fun box next => box.name < next.name := by
  refine Registry.pairwise_boxes ?_
  intro name box hbox
  obtain ⟨a, _, hname, rfl⟩ := (h.ofName name box).mp hbox
  exact hname

/-- The maps of a registry that records a list agree. -/
theorem consistent (h : Records r accepted) : r.Consistent where
  ofAddress := by
    intro address box hbox
    obtain ⟨a, ha, rfl, rfl⟩ := (h.ofAddress address box).mp hbox
    exact ⟨rfl, h.ofName_of_mem ha⟩
  ofName := by
    intro name box hbox
    obtain ⟨a, ha, rfl, rfl⟩ := (h.ofName name box).mp hbox
    exact ⟨rfl, h.ofAddress_of_mem ha⟩
  names := by
    intro name box hbox
    obtain ⟨a, ha, rfl, rfl⟩ := (h.ofName name box).mp hbox
    have hname := h.names a ha
    show IsName (Text.Utf8.encode (Text.Utf8.decodeLossy a.name))
    rw [hname.encode_decodeLossy]
    exact hname
  mem_boxes := by
    intro box
    rw [h.mem_boxes]
    constructor
    · rintro ⟨a, ha, rfl⟩
      exact h.ofAddress_of_mem ha
    · intro hbox
      obtain ⟨a, ha, _, hab⟩ := (h.ofAddress _ box).mp hbox
      exact ⟨a, ha, hab⟩
  nodup := by
    refine h.pairwise_boxes.imp ?_
    rintro box _ hlt rfl
    exact lt_irrefl _ hlt
  sorted := h.pairwise_boxes
  address_inj := by
    intro box hbox other hother heq
    obtain ⟨a, ha, rfl⟩ := h.mem_boxes.mp hbox
    obtain ⟨b, hb, rfl⟩ := h.mem_boxes.mp hother
    have hfound := h.ofAddress_of_mem ha
    rw [show a.address = b.address from heq, h.ofAddress_of_mem hb] at hfound
    exact (Option.some.inj hfound).symm
  name_inj := by
    intro box hbox other hother heq
    obtain ⟨a, ha, rfl⟩ := h.mem_boxes.mp hbox
    obtain ⟨b, hb, rfl⟩ := h.mem_boxes.mp hother
    have hfound := h.ofName_of_mem ha
    rw [heq, h.ofName_of_mem hb] at hfound
    exact (Option.some.inj hfound).symm
  length_boxes := by
    rw [Registry.length_boxes_eq, h.size_byName]
    exact h.size_byAddress.symm
  isEmpty_iff := by
    unfold Registry.isEmpty Registry.count
    rw [Std.TreeMap.isEmpty_eq_size_eq_zero, beq_iff_eq]

end Records

/-- However a registry is used from its beginning on, its two maps agree, its names are well-formed
and its list is complete, sorted and without repetition. -/
theorem registry_consistent (actions : List Action) :
    (actions.foldl Registry.act .empty).Consistent := by
  rw [Registry.foldl_act]
  exact (Records.ofAttempts _).consistent

end Registrar.Mailbox
