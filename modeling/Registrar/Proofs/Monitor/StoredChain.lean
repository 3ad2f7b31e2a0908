import Mathlib
import Registrar.Proofs.Chain.Store
import Registrar.Proofs.Monitor.Polling

/-!
# Polling a chain in memory

A chain in memory never fails and keeps its blocks. If it has a block at every height, one poll comes
to its end, and for blocks that follow one another from the monitor's height on the poll processes
just these.
-/

namespace Registrar.Monitor

open Chain (Block Store)

/-! ## Catching up -/

theorem succ_above {h goal : UInt64} (hlt : h < goal) : h < h + 1 ∧ h + 1 ≤ goal := by
  have hbelow : h.toNat < goal.toNat := UInt64.lt_iff_toNat_lt.mp hlt
  rw [UInt64.lt_iff_toNat_lt, UInt64.le_iff_toNat_le, toNat_succ hlt]
  exact ⟨Nat.lt_succ_self _, hbelow⟩

/-- A chain in memory that has every block up to its height is processed up to there. -/
theorem catchUp_store {store : Store} {goal : UInt64} (m : Monitor)
    (h : ∀ n, m.height < n → n ≤ goal → ∃ b, store.block? n = some b) :
    (catchUp storeProvider goal m store).result = .ok (goal.toNat - m.height.toNat)
      ∧ (catchUp storeProvider goal m store).monitor.height.toNat
        = max m.height.toNat goal.toNat := by
  fun_induction catchUp storeProvider goal m store with
  | case1 m store hlt next reply chain' hreply m' cause hanswer =>
    -- a chain in memory does not fail
    cases hreply
    cases hanswer
  | case2 m store hlt next reply chain' hreply m' hanswer =>
    -- and by hypothesis it has the next block
    cases hreply
    obtain ⟨hnext, hle⟩ := succ_above hlt
    obtain ⟨b, hb⟩ := h next hnext hle
    cases hb.symm.trans (Except.ok.inj hanswer)
  | case3 m store hlt next reply chain' hreply m' b hanswer processed rest ih =>
    cases hreply
    have hlow := toNat_succ hlt
    have hbelow : m.height.toNat < goal.toNat := UInt64.lt_iff_toNat_lt.mp hlt
    obtain ⟨hresult, hheight⟩ := ih fun n hn hgoal =>
      h n (UInt64.lt_trans (succ_above hlt).1 hn) hgoal
    constructor
    · show rest.result.map (· + 1) = _
      rw [hresult]
      show Except.ok (goal.toNat - (m.height + 1).toNat + 1) = _
      rw [hlow]
      congr 1
      omega
    · show rest.monitor.height.toNat = _
      rw [hheight]
      show max (m.height + 1).toNat goal.toNat = _
      rw [hlow]
      omega
  | case4 m store hlt =>
    have hgoal : goal.toNat ≤ m.height.toNat := UInt64.le_iff_toNat_le.mp (UInt64.not_lt.mp hlt)
    constructor
    · rw [Nat.sub_eq_zero_of_le hgoal]
    · exact (Nat.max_eq_left hgoal).symm

/-- A chain in memory is not changed by a poll. -/
theorem chain_poll (m : Monitor) (s : Store) : (poll storeProvider m s).chain = s := by
  show (catchUp storeProvider s.height m s).chain = s
  generalize s.height = goal
  fun_induction catchUp storeProvider goal m s with
  | case1 m s hlt next reply chain' hreply m' cause hanswer =>
    cases hreply
    rfl
  | case2 m s hlt next reply chain' hreply m' hanswer =>
    cases hreply
    rfl
  | case3 m s hlt next reply chain' hreply m' b hanswer processed rest ih =>
    cases hreply
    exact ih
  | case4 m s hlt => rfl

/-- A chain in memory has no other block for a height than the one that it holds. -/
theorem serves_store {serve : UInt64 → Block} {store : Store}
    (h : ∀ n b, store.block? n = some b → b = serve n) : Serves storeProvider serve store := by
  have hsame {s s' : Store} (hreach : Reaches storeProvider s s') : s' = s := by
    induction hreach with
    | refl => rfl
    | height _ ih => exact ih
    | block _ _ ih => exact ih
    | transaction _ _ ih => exact ih
  intro store' hreach n b hanswer
  rw [hsame hreach] at hanswer
  exact h n b (Except.ok.inj hanswer)

/-! ## Blocks that follow one another -/

/-- Whether blocks stand at the heights right above `start`, one after the other. -/
def Follow (start : UInt64) (blocks : List Block) : Prop :=
  blocks.map (fun b => b.index.toNat) = List.range' (start.toNat + 1) blocks.length

namespace Follow

variable {start : UInt64} {blocks : List Block}

theorem map_index (h : Follow start blocks) :
    blocks.map Block.index
      = (List.range' (start.toNat + 1) blocks.length).map UInt64.ofNat := by
  rw [← show _ = _ from h, List.map_map]
  exact List.map_congr_left fun b _ => (UInt64.ofNat_toNat).symm

/-- Such blocks stand at different heights. -/
theorem nodup (h : Follow start blocks) : (blocks.map Block.index).Nodup := by
  apply List.Nodup.of_map UInt64.toNat
  rw [List.map_map]
  show (blocks.map fun b => b.index.toNat).Nodup
  rw [show _ = _ from h]
  exact List.nodup_range'

theorem mem_iff (h : Follow start blocks) (n : Nat) :
    (∃ b ∈ blocks, b.index.toNat = n) ↔ start.toNat < n ∧ n ≤ start.toNat + blocks.length := by
  rw [← List.mem_map (f := fun b : Block => b.index.toNat), show _ = _ from h, List.mem_range'_1]
  omega

/-- The chain of such blocks is as high as the last of them. -/
theorem toNat_height (h : Follow start blocks) (hne : blocks ≠ []) :
    (Store.ofBlocks blocks).height.toNat = start.toNat + blocks.length := by
  have hlength : 0 < blocks.length := List.length_pos_iff.mpr hne
  obtain ⟨top, htop, hindex⟩ := (h.mem_iff (start.toNat + blocks.length)).mpr (by omega)
  have hlow : top.index ≤ (Store.ofBlocks blocks).height :=
    (Store.height_ofBlocks_le_iff blocks _).mp (UInt64.le_refl _) top htop
  have hhigh : (Store.ofBlocks blocks).height ≤ top.index := by
    rw [Store.height_ofBlocks_le_iff]
    intro b hb
    rw [UInt64.le_iff_toNat_le, hindex]
    exact ((h.mem_iff _).mp ⟨b, hb, rfl⟩).2
  rw [UInt64.le_antisymm hhigh hlow, hindex]

/-- Their chain has a block at every height above `start` up to its own. -/
theorem exists_block (h : Follow start blocks) {n : UInt64} (hlow : start < n)
    (hhigh : n ≤ (Store.ofBlocks blocks).height) :
    ∃ b, (Store.ofBlocks blocks).block? n = some b := by
  rw [UInt64.lt_iff_toNat_lt] at hlow
  rw [UInt64.le_iff_toNat_le] at hhigh
  by_cases hne : blocks = []
  · subst hne
    rw [show (Store.ofBlocks []).height = 0 from Store.height_empty, UInt64.toNat_zero] at hhigh
    omega
  · rw [h.toNat_height hne] at hhigh
    obtain ⟨b, hb, hindex⟩ := (h.mem_iff n.toNat).mpr ⟨hlow, hhigh⟩
    rw [← UInt64.toNat_inj.mp hindex]
    exact ⟨b, Store.block?_ofBlocks h.nodup b hb⟩

/-- Above `start` their chain is as high as they are many. -/
theorem height_sub (h : Follow start blocks) :
    (Store.ofBlocks blocks).height.toNat - start.toNat = blocks.length := by
  by_cases hne : blocks = []
  · subst hne
    rw [show (Store.ofBlocks []).height = 0 from Store.height_empty]
    exact Nat.zero_sub _
  · rw [h.toNat_height hne]
    omega

/-- A monitor at `start` that sees their chain processes just these blocks. -/
theorem map_heights (h : Follow start blocks) {goal : UInt64}
    (hgoal : goal.toNat = max start.toNat (Store.ofBlocks blocks).height.toNat)
    {serve : UInt64 → Block} (hserve : ∀ b ∈ blocks, serve b.index = b) :
    (heights start goal).map serve = blocks := by
  have hcount : goal.toNat - start.toNat = blocks.length := by
    rw [hgoal, ← h.height_sub]
    omega
  unfold heights
  rw [hcount, ← h.map_index, List.map_map]
  exact (List.map_congr_left hserve).trans (List.map_id _)

end Follow

end Registrar.Monitor
