import Mathlib
import Registrar.Proofs.Chain.Cache.Coherence

/-!
# What a cache holds, told from its history

A cache knows nothing of its past but the order of use. This order is what the history says it should
be: of all hashes that were ever used those with the latest uses, as many as there is room for, the
latest first. Under each of them stands the transaction that was put in last, and the counts are
those of the operations.

A use is a transaction put in or a look-up that finds something, so whether an operation is one
depends on the cache that it meets. `moments` keeps the two together.
-/

namespace Registrar.Chain

namespace Cache

/-! ## The history -/

namespace Operation

/-- The transaction that is put in. -/
def inserted? : Operation → Option Transaction
  | insert tx => some tx
  | _ => none

/-- Whether a transaction is looked up. -/
def isGet : Operation → Bool
  | get _ => true
  | _ => false

/-- The hash that is used when this cache is asked: one that is put in, or one that is found. -/
def used? (c : Cache) : Operation → Option String
  | insert tx => some tx.hash
  | get hash => if (c.get hash).1.isSome then some hash else none
  | contains _ => none

/-- Whether a transaction is put in whose hash this cache does not hold. -/
def isNew (c : Cache) : Operation → Bool
  | insert tx => !c.contains tx.hash
  | _ => false

end Operation

/-- The operations, each with the cache that it meets. -/
def moments (c : Cache) : List Operation → List (Cache × Operation)
  | [] => []
  | op :: ops => (c, op) :: (c.perform op).moments ops

/-- The hashes that are used, in the order of the uses. -/
def uses (c : Cache) (ops : List Operation) : List String :=
  (c.moments ops).filterMap fun moment => moment.2.used? moment.1

/-- How many transactions are put in whose hash is not held at that moment. -/
def newcomers (c : Cache) (ops : List Operation) : Nat :=
  (c.moments ops).countP fun moment => moment.2.isNew moment.1

/-- The transactions that are put in, in order. -/
def inserted (ops : List Operation) : List Transaction :=
  ops.filterMap Operation.inserted?

/-- The transaction that was put in last under a hash. -/
def lastInserted? (ops : List Operation) (hash : String) : Option Transaction :=
  (inserted ops).reverse.find? fun tx => tx.hash = hash

section concat

variable (c : Cache) (ops : List Operation) (op : Operation)

theorem moments_concat : c.moments (ops ++ [op]) = c.moments ops ++ [(c.performAll ops, op)] := by
  induction ops generalizing c with
  | nil => rfl
  | cons first ops ih =>
    rw [List.cons_append, moments, ih]
    rfl

theorem uses_concat : c.uses (ops ++ [op]) = c.uses ops ++ (op.used? (c.performAll ops)).toList := by
  rw [uses, moments_concat, List.filterMap_append]
  cases hused : op.used? (c.performAll ops) <;> simp [hused, uses]

theorem newcomers_concat : c.newcomers (ops ++ [op])
    = c.newcomers ops + if op.isNew (c.performAll ops) then 1 else 0 := by
  rw [newcomers, moments_concat, List.countP_append, List.countP_singleton]
  rfl

theorem inserted_concat : inserted (ops ++ [op]) = inserted ops ++ op.inserted?.toList := by
  rw [inserted, List.filterMap_append]
  cases hinserted : op.inserted? <;> simp [hinserted, inserted]

theorem lastInserted?_concat (hash : String) : lastInserted? (ops ++ [op]) hash
    = (op.inserted?.toList.find? fun tx => tx.hash = hash).or (lastInserted? ops hash) := by
  rw [lastInserted?, inserted_concat, List.reverse_append, List.find?_append]
  congr 1
  cases op.inserted? <;> rfl

end concat

/-! ## One operation -/

namespace Coherent

variable {c : Cache}

/-- A look-up finds something just if its hash is in the order of use. -/
theorem isSome_get_iff (h : Coherent c) (hash : String) :
    (c.get hash).1.isSome = true ↔ hash ∈ c.recency := by
  rw [get_fst]
  exact h.isSome_held? hash

/-- A use brings its hash to the front, and nothing else changes the order. -/
theorem recency_perform (h : Coherent c) (op : Operation) :
    (c.perform op).recency
      = (op.used? c).elim c.recency fun hash => bring c.capacity hash c.recency := by
  cases op with
  | insert tx => exact h.recency_insert tx
  | get hash =>
    refine (h.recency_get hash).trans ?_
    unfold Operation.used?
    simp only [h.isSome_get_iff]
    split_ifs <;> rfl
  | contains hash => rfl

/-- What is held after an operation was put in by it or was held before. -/
theorem held?_perform (h : Coherent c) (op : Operation) (hash : String) :
    (c.perform op).held? hash = if hash ∈ (c.perform op).recency then
      (op.inserted?.toList.find? fun tx => tx.hash = hash).or (c.held? hash) else none := by
  by_cases hmem : hash ∈ (c.perform op).recency
  · rw [if_pos hmem]
    cases op with
    | insert tx =>
      refine (h.held?_insert tx hash).trans ?_
      by_cases hsame : hash = tx.hash
      · simp [hsame, Operation.inserted?]
      · have hmem' : hash ∈ (c.insert tx).recency := hmem
        simp [hsame, Ne.symm hsame, hmem', Operation.inserted?]
    | get other => exact held?_get c other hash
    | contains other => rfl
  · rw [if_neg hmem]
    exact (h.perform op).held?_eq_none_iff.mpr hmem

/-- What is used was put in before or is put in now. -/
theorem mem_of_used? (h : Coherent c) {op : Operation} {hash : String}
    (hused : op.used? c = some hash) :
    hash ∈ c.recency ∨ hash ∈ op.inserted?.toList.map Transaction.hash := by
  cases op with
  | insert tx =>
    cases hused
    exact Or.inr (List.mem_singleton_self _)
  | get other =>
    unfold Operation.used? at hused
    simp only [h.isSome_get_iff] at hused
    split_ifs at hused with hmem
    cases hused
    exact Or.inl hmem
  | contains other => cases hused

/-! ## The counts -/

theorem lookups_perform (h : Coherent c) (op : Operation) :
    (c.perform op).stats.hits + (c.perform op).stats.misses
      = c.stats.hits + c.stats.misses + if op.isGet then 1 else 0 := by
  cases op with
  | insert tx =>
    show (c.insert tx).stats.hits + (c.insert tx).stats.misses = _
    rw [h.stats_insert]
    rfl
  | get hash =>
    show (c.get hash).2.stats.hits + (c.get hash).2.stats.misses = c.stats.hits + c.stats.misses + 1
    rw [h.stats_get]
    split_ifs
    · exact Nat.add_right_comm _ _ _
    · exact (Nat.add_assoc _ _ _).symm
  | contains hash => rfl

theorem inserts_perform (h : Coherent c) (op : Operation) :
    (c.perform op).stats.inserts = c.stats.inserts + op.inserted?.toList.length := by
  cases op with
  | insert tx =>
    show (c.insert tx).stats.inserts = c.stats.inserts + 1
    rw [h.stats_insert]
  | get hash =>
    show (c.get hash).2.stats.inserts = c.stats.inserts
    rw [h.stats_get]
    split_ifs <;> rfl
  | contains hash => rfl

/-- A newcomer is held from then on, and the one that goes for it is counted. -/
theorem newcomer_perform (h : Coherent c) (op : Operation) :
    (c.perform op).stats.evictions + (c.perform op).size
      = c.stats.evictions + c.size + if op.isNew c then 1 else 0 := by
  have hlength := h.length_le
  rw [(h.perform op).size_eq, h.size_eq]
  cases op with
  | insert tx =>
    show (c.insert tx).stats.evictions + (c.insert tx).recency.length
      = c.stats.evictions + c.recency.length + if !c.contains tx.hash then 1 else 0
    rw [h.stats_insert, h.recency_insert]
    by_cases hmem : tx.hash ∈ c.recency
    · rw [length_bring_of_mem h.nodup hlength hmem, (h.contains_iff _).mpr hmem]
      simp [hmem]
    · rw [length_bring_of_not_mem h.capacity_pos hmem]
      have hcontains : c.contains tx.hash = false := by
        rw [← Bool.not_eq_true, h.contains_iff]
        exact hmem
      simp only [hmem, hcontains, not_false_eq_true, true_and, Bool.not_false, if_true]
      split_ifs <;> omega
  | get hash =>
    show (c.get hash).2.stats.evictions + (c.get hash).2.recency.length
      = c.stats.evictions + c.recency.length
    rw [h.stats_get, h.recency_get]
    split_ifs with hmem
    · rw [length_bring_of_mem h.nodup hlength hmem]
    · rfl
  | contains hash => rfl

end Coherent

/-! ## The order of use -/

/-- A use moves its hash to the end of the hashes that were used. -/
theorem dedup_concat (used : List String) (hash : String) :
    (used ++ [hash]).dedup = used.dedup.filter (· ≠ hash) ++ [hash] := by
  induction used with
  | nil => rfl
  | cons first used ih =>
    rw [List.cons_append]
    by_cases hfirst : first = hash
    · subst hfirst
      rw [List.dedup_cons_of_mem (by simp), ih]
      by_cases hmem : first ∈ used
      · rw [List.dedup_cons_of_mem hmem]
      · rw [List.dedup_cons_of_notMem hmem, List.filter_cons_of_neg (by simp)]
    · by_cases hmem : first ∈ used
      · rw [List.dedup_cons_of_mem (by simp [hmem]), List.dedup_cons_of_mem hmem, ih]
      · rw [List.dedup_cons_of_notMem (by simp [hmem, hfirst]), List.dedup_cons_of_notMem hmem, ih,
          List.filter_cons_of_pos (by simpa using hfirst), List.cons_append]

/-- What there was no room for before has none after a use: the use takes out one hash at most, and
puts one in. -/
theorem bring_take {recency : List String} (h : recency.Nodup) (capacity : Nat) (hash : String) :
    bring capacity hash (recency.take capacity) = bring capacity hash recency := by
  cases capacity with
  | zero => rfl
  | succ room =>
    show hash :: ((recency.take (room + 1)).filter (· ≠ hash)).take room
      = hash :: (recency.filter (· ≠ hash)).take room
    congr 1
    induction recency generalizing room with
    | nil => rfl
    | cons first recency ih =>
      obtain ⟨hfirst, hnodup⟩ := List.nodup_cons.mp h
      rw [List.take_succ_cons]
      by_cases hsame : first = hash
      · -- the hash stands here and nowhere else
        subst hsame
        rw [List.filter_cons_of_neg (by simp), List.filter_cons_of_neg (by simp),
          filter_ne_of_not_mem hfirst, filter_ne_of_not_mem (mt List.mem_of_mem_take hfirst),
          List.take_take, Nat.min_self]
      · rw [List.filter_cons_of_pos (by simpa using hsame),
          List.filter_cons_of_pos (by simpa using hsame)]
        cases room with
        | zero => rfl
        | succ room => rw [List.take_succ_cons, List.take_succ_cons, ih hnodup room]

section history

variable {c : Cache} (ops : List Operation)

/-- The order of use holds the hashes with the latest uses, the latest first. -/
theorem recency_performAll (capacity : Nat) :
    ((withCapacity capacity).performAll ops).recency
      = ((withCapacity capacity).uses ops).dedup.reverse.take (max capacity 1) := by
  induction ops using List.reverseRecOn with
  | nil => simp [withCapacity, uses, moments]
  | append_singleton ops op ih =>
    have h := (Coherent.withCapacity capacity).performAll ops
    have hcapacity : ((withCapacity capacity).performAll ops).capacity = max capacity 1 :=
      capacity_performAll _ ops
    rw [performAll_concat, h.recency_perform, uses_concat, ih, hcapacity]
    cases op.used? ((withCapacity capacity).performAll ops) with
    | none => simp
    | some hash =>
      rw [Option.elim_some, bring_take (List.nodup_reverse.mpr (List.nodup_dedup _)),
        Option.toList_some, dedup_concat, List.reverse_append, ← List.filter_reverse]
      rfl

/-- A hash that was used was put in at some time. -/
theorem mem_uses_iff (capacity : Nat) (hash : String) :
    hash ∈ (withCapacity capacity).uses ops ↔ hash ∈ (inserted ops).map Transaction.hash := by
  induction ops using List.reverseRecOn with
  | nil => rfl
  | append_singleton ops op ih =>
    have h := (Coherent.withCapacity capacity).performAll ops
    rw [uses_concat, inserted_concat, List.mem_append, List.map_append, List.mem_append, ih]
    constructor
    · rintro (hbefore | hnow)
      · exact Or.inl hbefore
      · rcases h.mem_of_used? (Option.mem_toList.mp hnow) with hheld | hinserted
        · -- it was found, so it had been used before
          rw [recency_performAll] at hheld
          have hused := List.mem_of_mem_take hheld
          rw [List.mem_reverse, List.mem_dedup, ih] at hused
          exact Or.inl hused
        · exact Or.inr hinserted
    · rintro (hbefore | hnow)
      · exact Or.inl hbefore
      · refine Or.inr ?_
        cases op with
        | insert tx => exact hnow
        | get other => cases hnow
        | contains other => cases hnow

/-- Under each hash in the order of use stands what was put in last. -/
theorem held?_performAll (capacity : Nat) (hash : String) :
    ((withCapacity capacity).performAll ops).held? hash
      = if hash ∈ ((withCapacity capacity).performAll ops).recency then lastInserted? ops hash
        else none := by
  induction ops using List.reverseRecOn with
  | nil => exact (Coherent.withCapacity capacity).held?_eq_none_iff.mpr List.not_mem_nil
  | append_singleton ops op ih =>
    have h := (Coherent.withCapacity capacity).performAll ops
    rw [performAll_concat, h.held?_perform, lastInserted?_concat]
    by_cases hmem : hash ∈ (((withCapacity capacity).performAll ops).perform op).recency
    · rw [if_pos hmem, if_pos hmem]
      cases hnow : op.inserted?.toList.find? fun tx => tx.hash = hash with
      | some tx => rfl
      | none =>
        -- it was not put in now, so it was held before
        have hbefore : hash ∈ ((withCapacity capacity).performAll ops).recency := by
          rw [← h.isSome_held?]
          have hheld := ((h.perform op).isSome_held? hash).mpr hmem
          rwa [h.held?_perform, if_pos hmem, hnow] at hheld
        rw [ih, if_pos hbefore]
    · rw [if_neg hmem, if_neg hmem]

/-- So as many are held as hashes were ever put in, or as there is room for. -/
theorem size_performAll (capacity : Nat) :
    ((withCapacity capacity).performAll ops).size
      = min (max capacity 1) ((inserted ops).map Transaction.hash).dedup.length := by
  have h := (Coherent.withCapacity capacity).performAll ops
  have hperm : ((withCapacity capacity).uses ops).dedup.Perm
      ((inserted ops).map Transaction.hash).dedup := by
    rw [List.perm_ext_iff_of_nodup (List.nodup_dedup _) (List.nodup_dedup _)]
    intro hash
    rw [List.mem_dedup, List.mem_dedup]
    exact mem_uses_iff ops capacity hash
  rw [h.size_eq, recency_performAll, List.length_take, List.length_reverse, hperm.length_eq]

/-- The counts are those of the operations. -/
theorem stats_performAll (capacity : Nat) :
    let c := (withCapacity capacity).performAll ops
    c.stats.hits + c.stats.misses = ops.countP Operation.isGet ∧
      c.stats.inserts = (inserted ops).length ∧
      c.stats.evictions + c.size = (withCapacity capacity).newcomers ops := by
  induction ops using List.reverseRecOn with
  | nil => exact ⟨rfl, rfl, rfl⟩
  | append_singleton ops op ih =>
    have h := (Coherent.withCapacity capacity).performAll ops
    obtain ⟨hlookups, hinserts, hnewcomers⟩ := ih
    simp only [performAll_concat]
    refine ⟨?_, ?_, ?_⟩
    · rw [h.lookups_perform, hlookups, List.countP_append, List.countP_singleton]
    · rw [h.inserts_perform, hinserts, inserted_concat, List.length_append]
    · rw [h.newcomer_perform, hnewcomers, newcomers_concat]

end history

/-- **The least recently used goes.** Whatever was done with a new cache, it holds the hashes with
the latest uses, of all that were ever put in as many as there is room for; the order of use lists
them, each once, the latest use first. Each stands for the transaction that was put in last under it.
A look-up finds what is held, and to ask changes nothing. The counts are those of the operations, and
of the transactions that came in new those that are not held any more were evicted. -/
theorem holds_latest_uses (capacity : Nat) (ops : List Operation) :
    let c := (withCapacity capacity).performAll ops
    c.recency = ((withCapacity capacity).uses ops).dedup.reverse.take (max capacity 1)
      ∧ c.size = min (max capacity 1) ((inserted ops).map Transaction.hash).dedup.length
      ∧ c.recency.Nodup
      ∧ (∀ hash, c.contains hash = true ↔ hash ∈ c.recency)
      ∧ (∀ hash, c.held? hash
          = if hash ∈ c.recency then lastInserted? ops hash else none)
      ∧ (∀ hash tx, c.held? hash = some tx → tx.hash = hash)
      ∧ (∀ hash, (c.get hash).1 = c.held? hash)
      ∧ (∀ hash, c.perform (.contains hash) = c)
      ∧ c.stats.hits + c.stats.misses = ops.countP Operation.isGet
      ∧ c.stats.inserts = (inserted ops).length
      ∧ c.stats.evictions + c.size = (withCapacity capacity).newcomers ops := by
  intro c
  have h : Coherent c := (Coherent.withCapacity capacity).performAll ops
  exact ⟨recency_performAll ops capacity, size_performAll ops capacity, h.nodup, h.contains_iff,
    held?_performAll ops capacity, h.hash_eq, get_fst c, fun _ => rfl,
    stats_performAll ops capacity⟩

end Cache

end Registrar.Chain
