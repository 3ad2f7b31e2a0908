import Mathlib
import Registrar.Chain.Cache

/-!
# The map and the order of use agree

A cache keeps its transactions in a map and the order of their use in a list. `Coherent` says that
the two hold the same hashes, each once, that a transaction stands under its own hash, and that no
more are held than there is room for. An empty cache is coherent, and so is what any operation makes
of a coherent one.

For a coherent cache each operation comes down to one change of the list, `bring`, and the map
follows it. What is proved of the order of use is therefore proved of lists.
-/

namespace Registrar.Chain

namespace Cache

/-! ## Bringing a hash to the front -/

/-- A list of at most `capacity` hashes after a use of `hash`: it comes first, and what there is no
room for is left out at the end. -/
def bring (capacity : Nat) (hash : String) (recency : List String) : List String :=
  (hash :: recency.filter (· ≠ hash)).take capacity

section bring

variable {capacity : Nat} {hash : String} {recency : List String}

theorem filter_ne_of_not_mem (h : hash ∉ recency) : recency.filter (· ≠ hash) = recency := by
  rw [List.filter_eq_self]
  intro other hother
  simpa using ne_of_mem_of_not_mem hother h

theorem length_bring_le : (bring capacity hash recency).length ≤ capacity :=
  List.length_take_le _ _

theorem nodup_bring (h : recency.Nodup) : (bring capacity hash recency).Nodup := by
  have hcons : (hash :: recency.filter (· ≠ hash)).Nodup := by
    rw [List.nodup_cons]
    exact ⟨by simp, h.filter _⟩
  exact hcons.sublist (List.take_sublist _ _)

theorem mem_bring_self (h : 0 < capacity) : hash ∈ bring capacity hash recency := by
  obtain ⟨room, rfl⟩ := Nat.exists_eq_succ_of_ne_zero h.ne'
  simp [bring]

/-- Nothing else comes in. -/
theorem mem_of_mem_bring {other : String} (h : other ∈ bring capacity hash recency)
    (hne : other ≠ hash) : other ∈ recency := by
  have hcons : other ∈ hash :: recency.filter (· ≠ hash) := List.mem_of_mem_take h
  simp only [List.mem_cons, hne, false_or] at hcons
  exact List.mem_of_mem_filter hcons

/-- A hash that is there already only changes its place. -/
theorem bring_of_mem (hlength : recency.length ≤ capacity) (h : hash ∈ recency) :
    bring capacity hash recency = hash :: recency.filter (· ≠ hash) := by
  have hless : (recency.filter (· ≠ hash)).length < recency.length :=
    List.length_filter_lt_length_iff_exists.mpr ⟨hash, h, by simp⟩
  apply List.take_of_length_le
  rw [List.length_cons]
  omega

/-- It does not change how many are held. -/
theorem length_bring_of_mem (hnodup : recency.Nodup) (hlength : recency.length ≤ capacity)
    (h : hash ∈ recency) : (bring capacity hash recency).length = recency.length := by
  have herase : recency.filter (· ≠ hash) = recency.erase hash := by
    rw [hnodup.erase_eq_filter]
    apply List.filter_congr
    intro other _
    by_cases hsame : other = hash <;> simp [hsame]
  rw [bring_of_mem hlength h, herase, List.length_cons, List.length_erase_of_mem h]
  have hpos : 0 < recency.length := List.length_pos_of_mem h
  omega

/-- A hash that is not there takes the room of the last one, if there is no other. -/
theorem bring_of_not_mem (hcapacity : 0 < capacity) (h : hash ∉ recency) :
    bring capacity hash recency = hash :: recency.take (capacity - 1) := by
  obtain ⟨room, rfl⟩ := Nat.exists_eq_succ_of_ne_zero hcapacity.ne'
  rw [bring, filter_ne_of_not_mem h]
  rfl

/-- While there is room, one more is held. -/
theorem length_bring_of_not_mem (hcapacity : 0 < capacity) (h : hash ∉ recency) :
    (bring capacity hash recency).length = min capacity (recency.length + 1) := by
  rw [bring_of_not_mem hcapacity h, List.length_cons, List.length_take]
  omega

end bring

/-! ## Single operations -/

theorem held?_eq (c : Cache) (hash : String) : c.held? hash = c.entries[hash]? :=
  Std.TreeMap.get?_eq_getElem?

theorem contains_eq (c : Cache) (hash : String) : c.contains hash = (c.held? hash).isSome := by
  rw [held?_eq]
  exact Std.TreeMap.contains_eq_isSome_getElem?

theorem recency_evict (c : Cache) : c.evict.recency = c.recency.dropLast := by
  unfold evict
  rcases hlast : c.recency.getLast? with _ | oldest
  · rw [List.getLast?_eq_none_iff] at hlast
    simp [hlast]
  · rfl

@[simp] theorem capacity_insert (c : Cache) (tx : Transaction) :
    (c.insert tx).capacity = c.capacity := by
  have hevict : c.evict.capacity = c.capacity := by
    unfold evict
    split <;> rfl
  have henlist : (c.enlist tx.hash).capacity = c.capacity := by
    show (if c.capacity ≤ c.size then c.evict else c).capacity = _
    split_ifs
    · exact hevict
    · rfl
  show (if c.contains tx.hash then c.touch tx.hash else c.enlist tx.hash).capacity = _
  split_ifs
  · rfl
  · exact henlist

theorem get_of_some {c : Cache} {hash : String} {tx : Transaction} (hheld : c.held? hash = some tx) :
    c.get hash
      = (some tx, { c.touch hash with stats := { c.stats with hits := c.stats.hits + 1 } }) := by
  unfold get
  rw [hheld]

theorem get_of_none {c : Cache} {hash : String} (hheld : c.held? hash = none) :
    c.get hash = (none, { c with stats := { c.stats with misses := c.stats.misses + 1 } }) := by
  unfold get
  rw [hheld]

/-- A look-up answers with what is held. -/
theorem get_fst (c : Cache) (hash : String) : (c.get hash).1 = c.held? hash := by
  rcases hheld : c.held? hash with _ | tx
  · rw [get_of_none hheld]
  · rw [get_of_some hheld]

/-- It leaves what is held as it is. -/
theorem held?_get (c : Cache) (hash other : String) :
    (c.get hash).2.held? other = c.held? other := by
  rcases hheld : c.held? hash with _ | tx
  · rw [get_of_none hheld]
    rfl
  · rw [get_of_some hheld]
    rfl

@[simp] theorem capacity_get (c : Cache) (hash : String) : (c.get hash).2.capacity = c.capacity := by
  unfold get
  split <;> rfl

/-! ## Coherent caches -/

/-- A cache whose map and whose order of use belong together. -/
structure Coherent (c : Cache) : Prop where
  nodup : c.recency.Nodup
  /-- Both hold the same hashes. -/
  isSome_held? : ∀ hash, (c.held? hash).isSome ↔ hash ∈ c.recency
  /-- A transaction stands under its own hash. -/
  hash_eq : ∀ hash tx, c.held? hash = some tx → tx.hash = hash
  capacity_pos : 0 < c.capacity
  length_le : c.recency.length ≤ c.capacity

namespace Coherent

variable {c : Cache}

theorem withCapacity (capacity : Nat) : Coherent (withCapacity capacity) where
  nodup := List.nodup_nil
  isSome_held? hash := by
    rw [held?_eq]
    simp [Cache.withCapacity]
  hash_eq hash tx h := by
    rw [held?_eq] at h
    simp [Cache.withCapacity] at h
  capacity_pos := Nat.lt_of_lt_of_le Nat.one_pos (Nat.le_max_right _ _)
  length_le := Nat.zero_le _

theorem contains_iff (h : Coherent c) (hash : String) : c.contains hash = true ↔ hash ∈ c.recency := by
  rw [contains_eq]
  exact h.isSome_held? hash

theorem held?_eq_none_iff (h : Coherent c) {hash : String} :
    c.held? hash = none ↔ hash ∉ c.recency := by
  rw [← h.isSome_held?]
  simp

theorem mem_of_held? (h : Coherent c) {hash : String} {tx : Transaction}
    (hheld : c.held? hash = some tx) : hash ∈ c.recency := by
  rw [← h.isSome_held?, hheld]
  rfl

/-- As many transactions are held as there are hashes in the order of use. -/
theorem size_eq (h : Coherent c) : c.size = c.recency.length := by
  have hperm : c.entries.keys.Perm c.recency := by
    rw [List.perm_ext_iff_of_nodup Std.TreeMap.nodup_keys h.nodup]
    intro hash
    rw [Std.TreeMap.mem_keys, Std.TreeMap.mem_iff_contains]
    exact h.contains_iff hash
  rw [← hperm.length_eq, Std.TreeMap.length_keys]
  rfl

/-! ## Making room -/

/-- The last hash goes, and nothing else does. -/
theorem held?_evict (h : Coherent c) (hash : String) :
    c.evict.held? hash = if hash ∈ c.recency.dropLast then c.held? hash else none := by
  unfold evict
  rcases hlast : c.recency.getLast? with _ | oldest
  · rw [List.getLast?_eq_none_iff] at hlast
    have hnone : c.held? hash = none := h.held?_eq_none_iff.mpr (by simp [hlast])
    simp [hnone]
  · obtain ⟨newer, hrecency⟩ := List.getLast?_eq_some_iff.mp hlast
    have hnodup : (newer ++ [oldest]).Nodup := hrecency ▸ h.nodup
    have holdest : oldest ∉ newer := by
      intro hmem
      exact (List.nodup_append.mp hnodup).2.2 oldest hmem oldest (by simp) rfl
    have herase : (c.entries.erase oldest)[hash]?
        = if oldest = hash then none else c.held? hash := by
      rw [Std.TreeMap.getElem?_erase, held?_eq]
      simp only [Std.LawfulEqCmp.compare_eq_iff_eq]
    simp only [hrecency, List.dropLast_concat, held?_eq] at herase ⊢
    rw [herase]
    by_cases hsame : oldest = hash
    · subst hsame
      simp [holdest]
    · by_cases hmem : hash ∈ newer
      · simp [hsame, hmem]
      · have hnone : c.held? hash = none := by
          apply h.held?_eq_none_iff.mpr
          simp [hrecency, hmem, Ne.symm hsame]
        rw [held?_eq] at hnone
        simp [hmem, hnone]

/-- A cache is full if its order of use is as long as there is room. -/
theorem full_iff (h : Coherent c) : c.capacity ≤ c.size ↔ c.recency.length = c.capacity := by
  have hlength := h.length_le
  rw [h.size_eq]
  omega

theorem recency_enlist (h : Coherent c) (hash : String) :
    (c.enlist hash).recency = hash :: c.recency.take (c.capacity - 1) := by
  have hlength := h.length_le
  show hash :: (if c.capacity ≤ c.size then c.evict else c).recency = _
  by_cases hfull : c.capacity ≤ c.size
  · rw [if_pos hfull, recency_evict, List.dropLast_eq_take, h.full_iff.mp hfull]
  · rw [if_neg hfull, List.take_of_length_le]
    rw [h.full_iff] at hfull
    omega

theorem held?_enlist (h : Coherent c) (hash other : String) :
    (c.enlist hash).held? other
      = if other ∈ c.recency.take (c.capacity - 1) then c.held? other else none := by
  have hlength := h.length_le
  unfold enlist
  by_cases hfull : c.capacity ≤ c.size
  · rw [if_pos hfull, ← h.full_iff.mp hfull, ← List.dropLast_eq_take]
    exact h.held?_evict other
  · rw [if_neg hfull, List.take_of_length_le]
    · by_cases hmem : other ∈ c.recency
      · rw [if_pos hmem]
        rfl
      · rw [if_neg hmem]
        exact h.held?_eq_none_iff.mpr hmem
    · rw [h.full_iff] at hfull
      omega

/-! ## Putting in -/

/-- To put a transaction in is a use of its hash. -/
theorem recency_insert (h : Coherent c) (tx : Transaction) :
    (c.insert tx).recency = bring c.capacity tx.hash c.recency := by
  unfold Cache.insert
  by_cases hmem : tx.hash ∈ c.recency
  · rw [if_pos ((h.contains_iff _).mpr hmem), bring_of_mem h.length_le hmem]
    rfl
  · rw [if_neg (mt (h.contains_iff _).mp hmem), bring_of_not_mem h.capacity_pos hmem]
    exact h.recency_enlist _

/-- The transaction is held from then on, and of the others those whose hashes are still there. -/
theorem held?_insert (h : Coherent c) (tx : Transaction) (hash : String) :
    (c.insert tx).held? hash
      = if hash = tx.hash then some tx
        else if hash ∈ (c.insert tx).recency then c.held? hash else none := by
  have hput : (c.insert tx).held? hash = if hash = tx.hash then some tx
      else (if c.contains tx.hash then c.touch tx.hash else c.enlist tx.hash).held? hash := by
    rw [held?_eq, held?_eq]
    show (Std.TreeMap.insert _ tx.hash tx)[hash]? = _
    simp only [Std.TreeMap.getElem?_insert, Std.LawfulEqCmp.compare_eq_iff_eq,
      eq_comm (a := hash)]
  rw [hput, h.recency_insert]
  by_cases hsame : hash = tx.hash
  · rw [if_pos hsame, if_pos hsame]
  · rw [if_neg hsame, if_neg hsame]
    by_cases hmem : tx.hash ∈ c.recency
    · rw [if_pos ((h.contains_iff _).mpr hmem), bring_of_mem h.length_le hmem]
      show c.held? hash = _
      by_cases hother : hash ∈ c.recency
      · simp [hsame, hother]
      · simp [hsame, hother, h.held?_eq_none_iff.mpr hother]
    · rw [if_neg (mt (h.contains_iff _).mp hmem), bring_of_not_mem h.capacity_pos hmem,
        h.held?_enlist]
      simp [hsame]

theorem insert (h : Coherent c) (tx : Transaction) : Coherent (c.insert tx) where
  nodup := by
    rw [h.recency_insert]
    exact nodup_bring h.nodup
  isSome_held? hash := by
    rw [h.held?_insert, h.recency_insert]
    by_cases hsame : hash = tx.hash
    · subst hsame
      simp [mem_bring_self h.capacity_pos]
    · rw [if_neg hsame]
      split_ifs with hmem
      · simp [hmem, (h.isSome_held? hash).mpr (mem_of_mem_bring hmem hsame)]
      · simp [hmem]
  hash_eq hash held hheld := by
    rw [h.held?_insert] at hheld
    split_ifs at hheld with hsame hmem
    · cases hheld
      exact hsame.symm
    · exact h.hash_eq hash held hheld
  capacity_pos := by
    rw [capacity_insert]
    exact h.capacity_pos
  length_le := by
    rw [h.recency_insert, capacity_insert]
    exact length_bring_le

/-- A transaction goes only if a new one finds the cache full. -/
theorem stats_insert (h : Coherent c) (tx : Transaction) :
    (c.insert tx).stats = { c.stats with
      inserts := c.stats.inserts + 1
      evictions := c.stats.evictions
        + if tx.hash ∉ c.recency ∧ c.recency.length = c.capacity then 1 else 0 } := by
  have henlist : tx.hash ∉ c.recency → (c.enlist tx.hash).stats = { c.stats with
      evictions := c.stats.evictions + if c.recency.length = c.capacity then 1 else 0 } := by
    intro hmem
    show (if c.capacity ≤ c.size then c.evict else c).stats = _
    by_cases hfull : c.capacity ≤ c.size
    · -- a full cache holds something, so there is a last hash, and it is held
      have hlength := h.full_iff.mp hfull
      have hne : c.recency ≠ [] := by
        have hpos := h.capacity_pos
        rw [← hlength] at hpos
        exact List.length_pos_iff.mp hpos
      have hlast : c.recency.getLast? = some (c.recency.getLast hne) :=
        List.getLast?_eq_some_getLast hne
      have hheld : c.contains (c.recency.getLast hne) = true :=
        (h.contains_iff _).mpr (List.getLast_mem hne)
      rw [if_pos hfull, evict, hlast]
      simp [hheld, hlength]
    · rw [if_neg hfull, if_neg (mt h.full_iff.mpr hfull)]
      rfl
  unfold Cache.insert
  by_cases hmem : tx.hash ∈ c.recency
  · rw [if_pos ((h.contains_iff _).mpr hmem)]
    simp [hmem, touch]
  · rw [if_neg (mt (h.contains_iff _).mp hmem)]
    simp [hmem, henlist hmem]

/-! ## Looking up -/

/-- One that finds something is a use, one that finds nothing is none. -/
theorem recency_get (h : Coherent c) (hash : String) :
    (c.get hash).2.recency
      = if hash ∈ c.recency then bring c.capacity hash c.recency else c.recency := by
  rcases hheld : c.held? hash with _ | tx
  · rw [get_of_none hheld, if_neg (h.held?_eq_none_iff.mp hheld)]
  · have hmem := h.mem_of_held? hheld
    rw [get_of_some hheld, if_pos hmem, bring_of_mem h.length_le hmem]
    rfl

/-- It counts as a hit if it finds something and as a miss if not. -/
theorem stats_get (h : Coherent c) (hash : String) :
    (c.get hash).2.stats
      = if hash ∈ c.recency then { c.stats with hits := c.stats.hits + 1 }
        else { c.stats with misses := c.stats.misses + 1 } := by
  rcases hheld : c.held? hash with _ | tx
  · rw [get_of_none hheld, if_neg (h.held?_eq_none_iff.mp hheld)]
  · rw [get_of_some hheld, if_pos (h.mem_of_held? hheld)]

theorem get (h : Coherent c) (hash : String) : Coherent (c.get hash).2 where
  nodup := by
    rw [h.recency_get]
    split_ifs
    · exact nodup_bring h.nodup
    · exact h.nodup
  isSome_held? other := by
    rw [held?_get, h.isSome_held?, h.recency_get]
    split_ifs with hmem
    · rw [bring_of_mem h.length_le hmem]
      by_cases hsame : other = hash <;> simp [hsame, hmem]
    · rfl
  hash_eq other tx hheld := by
    rw [held?_get] at hheld
    exact h.hash_eq other tx hheld
  capacity_pos := by
    rw [capacity_get]
    exact h.capacity_pos
  length_le := by
    rw [h.recency_get, capacity_get]
    split_ifs
    · exact length_bring_le
    · exact h.length_le

end Coherent

/-! ## Any use of a cache -/

/-- What may be asked of a cache. -/
inductive Operation where
  | insert (tx : Transaction)
  | get (hash : String)
  | contains (hash : String)
  deriving DecidableEq, Repr

/-- The cache after an operation. To ask whether a hash is held leaves it as it is. -/
def perform (c : Cache) : Operation → Cache
  | .insert tx => c.insert tx
  | .get hash => (c.get hash).2
  | .contains _ => c

/-- The cache after operations made one after the other. -/
def performAll (c : Cache) (ops : List Operation) : Cache :=
  ops.foldl perform c

@[simp] theorem performAll_nil (c : Cache) : c.performAll [] = c := rfl

@[simp] theorem performAll_concat (c : Cache) (ops : List Operation) (op : Operation) :
    c.performAll (ops ++ [op]) = (c.performAll ops).perform op := by
  simp [performAll]

@[simp] theorem capacity_perform (c : Cache) (op : Operation) :
    (c.perform op).capacity = c.capacity := by
  cases op with
  | insert tx => exact capacity_insert c tx
  | get hash => exact capacity_get c hash
  | contains hash => rfl

namespace Coherent

theorem perform {c : Cache} (h : Coherent c) (op : Operation) : Coherent (c.perform op) := by
  cases op with
  | insert tx => exact h.insert tx
  | get hash => exact h.get hash
  | contains hash => exact h

theorem performAll {c : Cache} (h : Coherent c) (ops : List Operation) :
    Coherent (c.performAll ops) := by
  induction ops generalizing c with
  | nil => exact h
  | cons op ops ih => exact ih (h.perform op)

end Coherent

@[simp] theorem capacity_performAll (c : Cache) (ops : List Operation) :
    (c.performAll ops).capacity = c.capacity := by
  induction ops generalizing c with
  | nil => rfl
  | cons op ops ih => exact (ih (c.perform op)).trans (capacity_perform c op)

end Cache

end Registrar.Chain
