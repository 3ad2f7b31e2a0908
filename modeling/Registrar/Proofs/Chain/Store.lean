import Mathlib
import Registrar.Chain.Store

/-!
# What a chain in memory holds

Putting a block in changes the chain at one height only. So a chain that was made of blocks at
different heights has each of them at its own height, and it is as high as the highest of them. Its
transactions are those of its blocks, and if no two of them share a hash the hash finds each.
-/

namespace Registrar.Chain.Store

/-! ## Blocks -/

@[simp] theorem block?_empty (height : UInt64) : empty.block? height = none := by
  unfold block? empty
  rw [Std.TreeMap.get?_eq_getElem?]
  exact Std.TreeMap.getElem?_emptyc

theorem block?_put (s : Store) (b : Block) (height : UInt64) :
    (s.put b).block? height = if b.index = height then some b else s.block? height := by
  unfold block? put
  simp only [Std.TreeMap.get?_eq_getElem?, Std.TreeMap.getElem?_insert,
    Std.LawfulEqCmp.compare_eq_iff_eq]

/-- Blocks at other heights leave a block where it is. -/
theorem block?_foldl_put_of_ne {bs : List Block} {height : UInt64}
    (h : ∀ b ∈ bs, b.index ≠ height) (s : Store) :
    (bs.foldl put s).block? height = s.block? height := by
  induction bs generalizing s with
  | nil => rfl
  | cons b bs ih =>
    rw [List.foldl_cons, ih (fun c hc => h c (List.mem_cons_of_mem _ hc)), block?_put,
      if_neg (h b List.mem_cons_self)]

/-- Blocks at different heights are all found. -/
theorem block?_ofBlocks {bs : List Block} (h : (bs.map Block.index).Nodup) :
    ∀ b ∈ bs, (ofBlocks bs).block? b.index = some b := by
  suffices hfold : ∀ s : Store, ∀ b ∈ bs, (bs.foldl put s).block? b.index = some b from hfold empty
  induction bs with
  | nil =>
    intro s b hb
    cases hb
  | cons a bs ih =>
    rw [List.map_cons, List.nodup_cons] at h
    intro s b hb
    rw [List.foldl_cons]
    rcases List.mem_cons.mp hb with rfl | hb
    · -- no later block is put at the height of the first one
      have hother : ∀ c ∈ bs, c.index ≠ b.index :=
        fun c hc heq => h.1 (List.mem_map.mpr ⟨c, hc, heq⟩)
      rw [block?_foldl_put_of_ne hother, block?_put, if_pos rfl]
    · exact ih h.2 (s.put a) b hb

/-- What is found at a height is one of the blocks, and stands at that height. -/
theorem mem_of_block?_ofBlocks {bs : List Block} {height : UInt64} {b : Block}
    (h : (ofBlocks bs).block? height = some b) : b ∈ bs ∧ b.index = height := by
  suffices hfold : ∀ s : Store, (bs.foldl put s).block? height = some b →
      s.block? height = some b ∨ b ∈ bs ∧ b.index = height by
    rcases hfold empty h with hempty | hmem
    · rw [block?_empty] at hempty
      cases hempty
    · exact hmem
  clear h
  induction bs with
  | nil => exact fun s h => Or.inl h
  | cons a bs ih =>
    intro s h
    rcases ih (s.put a) h with hput | ⟨hmem, hindex⟩
    · rw [block?_put] at hput
      by_cases ha : a.index = height
      · rw [if_pos ha] at hput
        cases hput
        exact Or.inr ⟨List.mem_cons_self, ha⟩
      · rw [if_neg ha] at hput
        exact Or.inl hput
    · exact Or.inr ⟨List.mem_cons_of_mem _ hmem, hindex⟩

/-- A chain has no block just where none was put. -/
theorem block?_ofBlocks_eq_none_iff {bs : List Block} {height : UInt64} :
    (ofBlocks bs).block? height = none ↔ ∀ b ∈ bs, b.index ≠ height := by
  suffices hfold : ∀ s : Store, (bs.foldl put s).block? height = none ↔
      s.block? height = none ∧ ∀ b ∈ bs, b.index ≠ height by
    rw [ofBlocks, hfold, block?_empty]
    exact and_iff_right rfl
  induction bs with
  | nil =>
    intro s
    simp
  | cons b bs ih =>
    intro s
    rw [List.foldl_cons, ih, block?_put, List.forall_mem_cons]
    by_cases hb : b.index = height <;> simp [hb]

/-- Where a block was put there is one, though a later one may have replaced it. -/
theorem exists_block?_ofBlocks {bs : List Block} {b : Block} (hb : b ∈ bs) :
    ∃ held, (ofBlocks bs).block? b.index = some held :=
  Option.ne_none_iff_exists'.mp fun hnone => block?_ofBlocks_eq_none_iff.mp hnone b hb rfl

/-- Whether each block is held at its own height. -/
def Indexed (s : Store) : Prop :=
  ∀ height b, s.block? height = some b → b.index = height

namespace Indexed

theorem ofBlocks (bs : List Block) : (ofBlocks bs).Indexed :=
  fun _ _ h => (mem_of_block?_ofBlocks h).2

theorem put {s : Store} (h : s.Indexed) (b : Block) : (s.put b).Indexed := by
  intro height held hheld
  rw [block?_put] at hheld
  by_cases hb : b.index = height
  · rw [if_pos hb] at hheld
    rwa [← Option.some.inj hheld]
  · rw [if_neg hb] at hheld
    exact h height held hheld

theorem foldl_put {s : Store} (h : s.Indexed) (bs : List Block) : (bs.foldl Store.put s).Indexed := by
  induction bs generalizing s with
  | nil => exact h
  | cons b bs ih => exact ih (h.put b)

end Indexed

/-! ## The height -/

@[simp] theorem height_empty : empty.height = 0 := by
  unfold height empty
  rw [Std.TreeMap.maxKey?_emptyc]
  rfl

/-- A block raises the chain to its height, if the chain is not as high already. -/
theorem height_put_le_iff (s : Store) (b : Block) (k : UInt64) :
    (s.put b).height ≤ k ↔ s.height ≤ k ∧ b.index ≤ k := by
  unfold height put
  rw [Std.TreeMap.maxKey?_insert]
  cases s.blocks.maxKey? with
  | none => simp
  | some top =>
    simp only [Option.elim_some, Option.getD_some, Std.isLE_compare]
    split_ifs with hle
    · exact ⟨fun h => ⟨UInt64.le_trans hle h, h⟩, fun h => h.2⟩
    · have hlt : b.index ≤ top := UInt64.le_of_lt (UInt64.not_le.mp hle)
      exact ⟨fun h => ⟨h, UInt64.le_trans hlt h⟩, fun h => h.1⟩

/-- A chain is no higher than the highest of its blocks. -/
theorem height_ofBlocks_le_iff (bs : List Block) (k : UInt64) :
    (ofBlocks bs).height ≤ k ↔ ∀ b ∈ bs, b.index ≤ k := by
  suffices hfold : ∀ s : Store,
      (bs.foldl put s).height ≤ k ↔ s.height ≤ k ∧ ∀ b ∈ bs, b.index ≤ k by
    rw [ofBlocks, hfold, height_empty]
    exact and_iff_right (UInt64.zero_le)
  induction bs with
  | nil =>
    intro s
    simp
  | cons b bs ih =>
    intro s
    rw [List.foldl_cons, ih, height_put_le_iff, List.forall_mem_cons, and_assoc]

/-- A chain that has a block at all has one at its height. -/
theorem exists_block?_height {s : Store} {height : UInt64} {b : Block}
    (h : s.block? height = some b) : ∃ top, s.block? s.height = some top := by
  unfold block? at h ⊢
  rw [Std.TreeMap.get?_eq_getElem?] at h
  cases hmax : s.blocks.maxKey? with
  | none =>
    rw [Std.TreeMap.getElem?_of_isEmpty (Std.TreeMap.maxKey?_eq_none_iff.mp hmax)] at h
    cases h
  | some top =>
    have hmem : top ∈ s.blocks := Std.TreeMap.contains_maxKey? hmax
    have hheight : s.height = top := by
      unfold Store.height
      rw [hmax, Option.getD_some]
    rw [hheight, Std.TreeMap.get?_eq_getElem?]
    exact Option.isSome_iff_exists.mp (Std.TreeMap.mem_iff_isSome_getElem?.mp hmem)

/-- So the chain of some blocks is just as high as one of them. -/
theorem exists_index_eq_height {bs : List Block} (h : bs ≠ []) :
    ∃ b ∈ bs, b.index = (ofBlocks bs).height := by
  obtain ⟨b, hb⟩ := List.exists_mem_of_ne_nil bs h
  obtain ⟨held, hheld⟩ := exists_block?_ofBlocks hb
  obtain ⟨top, htop⟩ := exists_block?_height hheld
  exact ⟨top, mem_of_block?_ofBlocks htop⟩

/-! ## Transactions -/

/-- The transactions of a chain are those of its blocks. -/
theorem mem_transactions_iff (s : Store) (tx : Transaction) :
    tx ∈ s.transactions ↔ ∃ height b, s.block? height = some b ∧ tx ∈ b.transactions := by
  unfold transactions block?
  rw [List.mem_flatMap]
  constructor
  · rintro ⟨⟨height, b⟩, hentry, htx⟩
    rw [Std.TreeMap.mem_toList_iff_getElem?_eq_some] at hentry
    exact ⟨height, b, Std.TreeMap.get?_eq_getElem?.trans hentry, htx⟩
  · rintro ⟨height, b, hb, htx⟩
    rw [Std.TreeMap.get?_eq_getElem?] at hb
    exact ⟨(height, b), Std.TreeMap.mem_toList_iff_getElem?_eq_some.mpr hb, htx⟩

/-- A block at a height that is free takes no transaction away. -/
theorem mem_transactions_put {s : Store} {b : Block} (hfree : s.block? b.index = none)
    {tx : Transaction} (h : tx ∈ s.transactions) : tx ∈ (s.put b).transactions := by
  rw [mem_transactions_iff] at h ⊢
  obtain ⟨height, c, hc, htx⟩ := h
  refine ⟨height, c, ?_, htx⟩
  rw [block?_put, if_neg, hc]
  rintro rfl
  rw [hfree] at hc
  cases hc

/-- Whether transactions with the same hash are the same. -/
def Unambiguous (s : Store) : Prop :=
  ∀ tx ∈ s.transactions, ∀ other ∈ s.transactions, tx.hash = other.hash → tx = other

instance (s : Store) : Decidable s.Unambiguous :=
  inferInstanceAs (Decidable (∀ tx ∈ s.transactions, ∀ other ∈ s.transactions,
    tx.hash = other.hash → tx = other))

/-- Then a look-up finds a transaction just if the chain has it. -/
theorem Unambiguous.transaction?_eq_some_iff {s : Store} (h : s.Unambiguous) {hash : String}
    {tx : Transaction} :
    s.transaction? hash = some tx ↔ tx ∈ s.transactions ∧ tx.hash = hash := by
  unfold transaction?
  constructor
  · intro hfound
    exact ⟨List.mem_of_find?_eq_some hfound, by simpa using List.find?_some hfound⟩
  · rintro ⟨hmem, rfl⟩
    rcases hfound : s.transactions.find? fun other => other.hash = tx.hash with _ | other
    · have hnone := List.find?_eq_none.mp hfound tx hmem
      simp at hnone
    · have hhash : other.hash = tx.hash := by simpa using List.find?_some hfound
      rw [hfound, h other (List.mem_of_find?_eq_some hfound) tx hmem hhash]

end Registrar.Chain.Store
