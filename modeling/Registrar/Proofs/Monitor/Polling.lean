import Mathlib
import Registrar.Monitor.Poll
import Registrar.Monitor.Rehearsal
import Registrar.Proofs.Chain.Store
import Registrar.Proofs.Monitor.Scanning

/-!
# Each block is processed once

However often the chain is polled, whatever heights it reports and wherever a poll fails, the work
of a monitor is that of processing the blocks above its first height up to its last one, each once
and in order. What carries the proof is `Advances`, which one block keeps and which composes, so it
holds of a poll that ends early as well as of one that ends well, and of any number of polls.
-/

namespace Registrar.Monitor

open Chain (Block)

/-! ## Heights -/

/-- The heights above `low` up to `high`, in ascending order. -/
def heights (low high : UInt64) : List UInt64 :=
  (List.range' (low.toNat + 1) (high.toNat - low.toNat)).map UInt64.ofNat

@[simp] theorem heights_self (h : UInt64) : heights h h = [] := by
  unfold heights
  rw [Nat.sub_self]
  rfl

theorem mem_heights {low high h : UInt64} : h ∈ heights low high ↔ low < h ∧ h ≤ high := by
  rw [UInt64.lt_iff_toNat_lt, UInt64.le_iff_toNat_le]
  unfold heights
  rw [List.mem_map]
  constructor
  · rintro ⟨n, hn, rfl⟩
    rw [List.mem_range'_1] at hn
    have hbound : high.toNat < UInt64.size := high.toNat_lt
    rw [UInt64.toNat_ofNat_of_lt' (by omega)]
    omega
  · intro hbetween
    refine ⟨h.toNat, ?_, UInt64.ofNat_toNat⟩
    rw [List.mem_range'_1]
    omega

/-- Heights that are reached in two stretches are those of both. -/
theorem heights_append {a b c : UInt64} (hab : a ≤ b) (hbc : b ≤ c) :
    heights a b ++ heights b c = heights a c := by
  have hlow : a.toNat ≤ b.toNat := UInt64.le_iff_toNat_le.mp hab
  have hhigh : b.toNat ≤ c.toNat := UInt64.le_iff_toNat_le.mp hbc
  unfold heights
  rw [← List.map_append]
  congr 1
  have hsplit : c.toNat - a.toNat = (b.toNat - a.toNat) + (c.toNat - b.toNat) := by omega
  have hstart : b.toNat + 1 = a.toNat + 1 + (b.toNat - a.toNat) := by omega
  rw [hsplit, hstart, List.range'_append_1]

theorem toNat_succ {h goal : UInt64} (hlt : h < goal) : (h + 1).toNat = h.toNat + 1 := by
  have hbound := goal.toNat_lt
  have hbelow : h.toNat < goal.toNat := UInt64.lt_iff_toNat_lt.mp hlt
  rw [UInt64.toNat_add, UInt64.toNat_one, Nat.mod_eq_of_lt (by omega)]

/-- The next height follows alone. -/
theorem heights_succ {h goal : UInt64} (hlt : h < goal) : heights h (h + 1) = [h + 1] := by
  unfold heights
  rw [toNat_succ hlt, Nat.add_sub_cancel_left]
  show [UInt64.ofNat (h.toNat + 1)] = [h + 1]
  rw [← toNat_succ hlt, UInt64.ofNat_toNat]

/-! ## Work -/

/-- The monitor after processing blocks one after the other. -/
def processAll (m : Monitor) (bs : List Block) : Monitor :=
  bs.foldl (fun m b => (m.processBlock b).monitor) m

theorem processAll_append (m : Monitor) (bs cs : List Block) :
    m.processAll (bs ++ cs) = (m.processAll bs).processAll cs :=
  List.foldl_append

/-- Whether two monitors have come to the same: they may differ in the height up to which blocks
count as processed and in their control, and in nothing else. -/
structure SameWork (m n : Monitor) : Prop where
  contract : m.contract = n.contract
  registry : m.registry = n.registry
  cache : m.cache = n.cache
  stats : m.stats = n.stats
  config : m.config = n.config

namespace SameWork

theorem refl (m : Monitor) : SameWork m m :=
  ⟨rfl, rfl, rfl, rfl, rfl⟩

theorem trans {l m n : Monitor} (h : SameWork l m) (h' : SameWork m n) : SameWork l n :=
  ⟨h.contract.trans h'.contract, h.registry.trans h'.registry, h.cache.trans h'.cache,
    h.stats.trans h'.stats, h.config.trans h'.config⟩

theorem symm {m n : Monitor} (h : SameWork m n) : SameWork n m :=
  ⟨h.contract.symm, h.registry.symm, h.cache.symm, h.stats.symm, h.config.symm⟩

/-- Neither the height nor the control has a part in processing a block. -/
theorem processBlock {m n : Monitor} (h : SameWork m n) (b : Block) :
    SameWork (m.processBlock b).monitor (n.processBlock b).monitor := by
  have hscan : m.scan b.transactions = n.scan b.transactions := by
    unfold scan target
    rw [h.contract, h.registry, h.stats]
  rw [processBlock_monitor, processBlock_monitor, hscan]
  refine ⟨h.contract, rfl, ?_, rfl, h.config⟩
  show b.transactions.foldl Chain.Cache.insert m.cache = _
  rw [h.cache]

theorem processAll {m n : Monitor} (h : SameWork m n) (bs : List Block) :
    SameWork (m.processAll bs) (n.processAll bs) := by
  induction bs generalizing m n with
  | nil => exact h
  | cons b bs ih => exact ih (h.processBlock b)

end SameWork

/-! ## What a provider serves -/

/-- What questions make of a provider's state. -/
inductive Reaches {σ : Type} (p : Provider σ) : σ → σ → Prop where
  | refl (chain : σ) : Reaches p chain chain
  | height {chain chain' : σ} : Reaches p (p.height chain).2 chain' → Reaches p chain chain'
  | block {chain chain' : σ} (h : UInt64) :
    Reaches p (p.block h chain).2 chain' → Reaches p chain chain'
  | transaction {chain chain' : σ} (hash : String) :
    Reaches p (p.transaction hash chain).2 chain' → Reaches p chain chain'

/-- Whether a provider, from this state on, has no other block for a height than `serve` tells. It
may have none, and it may fail. -/
def Serves {σ : Type} (p : Provider σ) (serve : UInt64 → Block) (chain : σ) : Prop :=
  ∀ chain', Reaches p chain chain' →
    ∀ h b, (p.block h chain').1.answer = .ok (some b) → b = serve h

section

variable {σ : Type} {p : Provider σ} {serve : UInt64 → Block}

theorem Serves.height {chain : σ} (h : Serves p serve chain) : Serves p serve (p.height chain).2 :=
  fun chain' hreach => h chain' hreach.height

theorem Serves.block {chain : σ} (h : Serves p serve chain) (n : UInt64) :
    Serves p serve (p.block n chain).2 :=
  fun chain' hreach => h chain' (hreach.block n)

/-! ## Moving on -/

/-- What a monitor may have become: it stands no lower, and its work is what the blocks in between
make of it. -/
structure Advances (serve : UInt64 → Block) (m m' : Monitor) : Prop where
  height_le : m.height ≤ m'.height
  work : SameWork m' (m.processAll ((heights m.height m'.height).map serve))

namespace Advances

/-- A monitor that stays where it is. -/
theorem of_sameWork {m m' : Monitor} (hheight : m'.height = m.height) (h : SameWork m' m) :
    Advances serve m m' := by
  constructor
  · exact UInt64.le_of_eq hheight.symm
  · rw [hheight, heights_self]
    exact h

/-- Two stretches one after the other. The second is processed from what the first came to, which
differs from the monitor at its end in height and control only. -/
theorem trans {m m' m'' : Monitor} (h : Advances serve m m') (h' : Advances serve m' m'') :
    Advances serve m m'' := by
  constructor
  · exact UInt64.le_trans h.height_le h'.height_le
  · rw [← heights_append h.height_le h'.height_le, List.map_append, processAll_append]
    exact h'.work.trans (h.work.processAll _)

/-- To meet requests is no work. -/
theorem heed (m : Monitor) (requests : List Request) : Advances serve m (m.heed requests) :=
  of_sameWork rfl ⟨rfl, rfl, rfl, rfl, rfl⟩

/-- One block, and then the next height. -/
theorem block {m : Monitor} {goal : UInt64} (hlt : m.height < goal) {b : Block}
    (hb : b = serve (m.height + 1)) :
    Advances serve m { (m.processBlock b).monitor with height := m.height + 1 } := by
  subst hb
  constructor
  · show m.height ≤ m.height + 1
    rw [UInt64.le_iff_toNat_le, toNat_succ hlt]
    exact Nat.le_succ _
  · show SameWork _ (m.processAll ((heights m.height (m.height + 1)).map serve))
    rw [heights_succ hlt]
    exact ⟨rfl, rfl, rfl, rfl, rfl⟩

end Advances

/-- Wherever catching up ends, the blocks up to there are processed. -/
theorem advances_catchUp (goal : UInt64) (m : Monitor) {chain : σ} (h : Serves p serve chain) :
    Advances serve m (catchUp p goal m chain).monitor := by
  -- along the loop: it ends at the goal or at a question without an answer, or does one block more
  fun_induction catchUp p goal m chain with
  | case1 m chain hlt next reply chain' hreply m' cause hanswer =>
    exact Advances.heed m reply.requests
  | case2 m chain hlt next reply chain' hreply m' hanswer =>
    exact Advances.heed m reply.requests
  | case3 m chain hlt next reply chain' hreply m' b hanswer processed rest ih =>
    have hblock : b = serve next := by
      apply h chain (Reaches.refl chain) next b
      rw [hreply]
      exact hanswer
    have hserves : Serves p serve chain' := by
      have hnext := h.block next
      rwa [hreply] at hnext
    have hheed : Advances serve m m' := Advances.heed m reply.requests
    have hstep : Advances serve m' { processed.monitor with height := next } :=
      Advances.block (show m'.height < goal from hlt) hblock
    exact hheed.trans (hstep.trans (ih hserves))
  | case4 m chain hlt =>
    exact Advances.of_sameWork rfl (SameWork.refl m)

/-- Wherever a poll ends, the blocks up to there are processed. -/
theorem advances_poll (m : Monitor) {chain : σ} (h : Serves p serve chain) :
    Advances serve m (poll p m chain).monitor := by
  have hserves := h.height
  unfold poll
  generalize p.height chain = asked at hserves ⊢
  obtain ⟨reply, chain'⟩ := asked
  have hheed : Advances serve m (m.heed reply.requests) := Advances.heed m reply.requests
  simp only
  cases reply.answer with
  | error cause => exact hheed
  | ok goal => exact hheed.trans (advances_catchUp goal _ hserves)

end

/-! ## A rehearsed chain -/

namespace Rehearsal

theorem store_nextHeight (r : Rehearsal) : r.nextHeight.2.store = r.store := by
  unfold nextHeight
  split <;> rfl

theorem store_answerHeight (r : Rehearsal) : r.answerHeight.2.store = r.store := by
  unfold answerHeight
  by_cases hrefused : r.refusedHeight = some (r.heightQuestions + 1)
  · simp only [if_pos hrefused]
  · simp only [if_neg hrefused]
    exact store_nextHeight _

theorem store_answerBlock (n : UInt64) (r : Rehearsal) : (answerBlock n r).2.store = r.store := by
  unfold answerBlock
  by_cases hrefused : r.refusedBlock = some n
  · simp only [if_pos hrefused]
  · simp only [if_neg hrefused]

theorem store_answerTransaction (hash : String) (r : Rehearsal) :
    (answerTransaction hash r).2.store = r.store := by
  unfold answerTransaction
  by_cases hrefused : r.refusedTransaction = some hash
  · simp only [if_pos hrefused]
  · simp only [if_neg hrefused]

/-- A rehearsed chain refuses a block or answers from what it holds. -/
theorem block?_of_answerBlock {n : UInt64} {r : Rehearsal} {b : Block}
    (h : (answerBlock n r).1.answer = .ok (some b)) : r.store.block? n = some b := by
  unfold answerBlock at h
  by_cases hrefused : r.refusedBlock = some n
  · simp only [if_pos hrefused] at h
    cases h
  · simp only [if_neg hrefused] at h
    exact Except.ok.inj h

/-- No question changes the blocks of a rehearsed chain. -/
theorem store_of_reaches {r r' : Rehearsal} (h : Reaches provider r r') : r'.store = r.store := by
  induction h with
  | refl r => rfl
  | height _ ih => exact ih.trans (store_answerHeight _)
  | block n _ ih => exact ih.trans (store_answerBlock n _)
  | transaction hash _ ih => exact ih.trans (store_answerTransaction hash _)

/-- So it never has two blocks for one height. -/
theorem serves {serve : UInt64 → Block} {r : Rehearsal}
    (h : ∀ n b, r.store.block? n = some b → b = serve n) : Serves provider serve r := by
  intro r' hreach n b hanswer
  apply h n b
  rw [← store_of_reaches hreach]
  exact block?_of_answerBlock hanswer

end Rehearsal

section

variable {σ : Type} {p : Provider σ} {serve : UInt64 → Block}

/-! ## Many polls -/

/-- The monitor after polls made one after the other, each of the chain as it is found then: between
two polls the chain may have changed in any way. -/
def pollEach (p : Provider σ) (m : Monitor) (chains : List σ) : Monitor :=
  chains.foldl (fun m chain => (poll p m chain).monitor) m

theorem advances_pollEach (m : Monitor) {chains : List σ}
    (h : ∀ chain ∈ chains, Serves p serve chain) : Advances serve m (pollEach p m chains) := by
  induction chains generalizing m with
  | nil => exact Advances.of_sameWork rfl (SameWork.refl m)
  | cons chain chains ih =>
    have hfirst := advances_poll m (h chain List.mem_cons_self)
    exact hfirst.trans (ih _ fun c hc => h c (List.mem_cons_of_mem _ hc))

/-- However many polls are made, of whatever heights, and wherever they fail: no poll lowers the
height, and the monitor has done the work of processing the blocks above its first height up to its
last one, each once and in ascending order. So polls that were cut and failed in other ways but
came as far have done the same work. -/
theorem processed_exactly_once (m : Monitor) {chains : List σ}
    (h : ∀ chain ∈ chains, Serves p serve chain) :
    (∀ before after, chains = before ++ after →
      (pollEach p m before).height ≤ (pollEach p m chains).height) ∧
    SameWork (pollEach p m chains)
      (m.processAll ((heights m.height (pollEach p m chains).height).map serve)) ∧
    ∀ others : List σ, (∀ chain ∈ others, Serves p serve chain) →
      (pollEach p m others).height = (pollEach p m chains).height →
      SameWork (pollEach p m others) (pollEach p m chains) := by
  have hwork := (advances_pollEach m h).work
  refine ⟨?_, hwork, ?_⟩
  · rintro before after rfl
    have hafter := advances_pollEach (pollEach p m before) fun c hc =>
      h c (List.mem_append_right before hc)
    have hboth : pollEach p m (before ++ after) = pollEach p (pollEach p m before) after :=
      List.foldl_append
    rw [hboth]
    exact hafter.height_le
  · intro others hothers hheight
    have hsame := (advances_pollEach m hothers).work
    rw [hheight] at hsame
    exact hsame.trans hwork.symm

end

/-- A block at a height and nothing in it. -/
def bareBlock (height : UInt64) : Block :=
  ⟨height, "", "", ⟨0, 0⟩, []⟩

/-- A chain of two blocks, of which at first the second one is refused. -/
def interrupted : List Rehearsal :=
  let store := Chain.Store.ofBlocks [bareBlock 1, bareBlock 2]
  [{ store, heights := [2], refusedBlock := some 2 }, { store, heights := [2] }]

/-- A monitor without a contract that has seen nothing. -/
def newcomer : Monitor where
  contract := none
  cache := Chain.Cache.withCapacity 1
  height := 0
  config := {}

/-- The second poll goes on where the first one failed. -/
theorem processed_exactly_once_interrupted :
    (∀ r ∈ interrupted, Serves Rehearsal.provider bareBlock r) ∧
    (pollEach Rehearsal.provider newcomer (interrupted.take 1)).height = 1 ∧
    (pollEach Rehearsal.provider newcomer interrupted).height = 2 ∧
    SameWork (pollEach Rehearsal.provider newcomer interrupted)
      (newcomer.processAll [bareBlock 1, bareBlock 2]) := by
  have hserves : ∀ r ∈ interrupted, Serves Rehearsal.provider bareBlock r := by
    have hstore : ∀ n b,
        (Chain.Store.ofBlocks [bareBlock 1, bareBlock 2]).block? n = some b → b = bareBlock n := by
      intro n b hb
      obtain ⟨hmem, rfl⟩ := Chain.Store.mem_of_block?_ofBlocks hb
      rcases List.mem_pair.mp hmem with rfl | rfl <;> rfl
    intro r hr
    rcases List.mem_pair.mp hr with rfl | rfl
    · exact Rehearsal.serves hstore
    · exact Rehearsal.serves hstore
  have hheight : (pollEach Rehearsal.provider newcomer interrupted).height = 2 := by
    decide +kernel
  have hwork := (processed_exactly_once newcomer hserves).2.1
  rw [hheight] at hwork
  exact ⟨hserves, by decide +kernel, hheight, hwork⟩

end Registrar.Monitor
