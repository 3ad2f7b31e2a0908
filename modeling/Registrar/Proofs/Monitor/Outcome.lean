import Mathlib
import Registrar.Proofs.Chain.Store
import Registrar.Proofs.Monitor.Recording
import Registrar.Proofs.Monitor.StoredChain

/-!
# How a poll comes out

A poll is to come from the height of the monitor up to the height that the provider reports. It gets
there if the provider has a block for every height in between, and else it ends at the least height for
which there is none. `Ending` says what a poll returns, which height it leaves and which blocks it asks
for, as a matter of what keeps the provider from giving each block; a chain in memory is kept from it by
nothing but that it does not hold one.
-/

namespace Registrar.Monitor

open Chain (Block Store)

/-! ## Heights -/

/-- No height above `low` overflows. -/
theorem map_toNat_heights (low high : UInt64) :
    (heights low high).map UInt64.toNat
      = List.range' (low.toNat + 1) (heights low high).length := by
  unfold heights
  rw [List.map_map, List.length_map, List.length_range']
  refine (List.map_congr_left ?_).trans (List.map_id _)
  intro n hn
  have hmem := List.mem_range'_1.mp hn
  have hbound := high.toNat_lt
  exact UInt64.toNat_ofNat_of_lt (by rw [UInt64.size]; omega)

/-- There are none where the heights go down. -/
theorem heights_of_le {low high : UInt64} (h : high ≤ low) : heights low high = [] := by
  unfold heights
  rw [Nat.sub_eq_zero_of_le (UInt64.le_iff_toNat_le.mp h)]
  rfl

theorem heights_cons {low high : UInt64} (h : low < high) :
    heights low high = (low + 1) :: heights (low + 1) high := by
  obtain ⟨habove, hhigh⟩ := succ_above h
  rw [← heights_append (UInt64.le_of_lt habove) hhigh, heights_succ h]
  rfl

theorem max_of_le {low goal : UInt64} (h : low ≤ goal) : max low goal = goal := by
  rw [UInt64.max_def, if_pos h]

theorem max_of_ge {low goal : UInt64} (h : goal ≤ low) : max low goal = low := by
  rw [UInt64.max_def]
  split
  · exact UInt64.le_antisymm h ‹_›
  · rfl

/-! ## Endings -/

/-- How catching up from `low` to `goal` ends if `obstacle?` tells why there is no block for a height:
the result, the height it leads to, and the heights whose blocks are asked for. -/
inductive Ending (obstacle? : UInt64 → Option MonitorError) (low goal : UInt64) :
    Except MonitorError Nat → UInt64 → List UInt64 → Prop where
  /-- There is a block for each height. -/
  | reached : (∀ h, low < h → h ≤ goal → obstacle? h = none) →
    Ending obstacle? low goal (.ok (goal.toNat - low.toNat)) (max low goal) (heights low goal)
  /-- The least height without a block is `h`. -/
  | stuck {h : UInt64} {cause : MonitorError} : low < h → h ≤ goal →
    (∀ k, low < k → k < h → obstacle? k = none) → obstacle? h = some cause →
    Ending obstacle? low goal (.error cause) (h - 1) (heights low h)

namespace Ending

variable {obstacle? onward? : UInt64 → Option MonitorError} {low goal top : UInt64}
  {result : Except MonitorError Nat} {asked : List UInt64}

/-- The heights whose blocks are asked for follow one another from the one above `low` on. -/
theorem map_toNat_asked (h : Ending obstacle? low goal result top asked) :
    asked.map UInt64.toNat = List.range' (low.toNat + 1) asked.length := by
  cases h with
  | reached => exact map_toNat_heights low goal
  | stuck => exact map_toNat_heights low _

/-- There is nothing to do. -/
theorem of_not_lt (hge : ¬ low < goal) : Ending obstacle? low goal (.ok 0) low [] := by
  have hle : goal ≤ low := UInt64.not_lt.mp hge
  have hnone : ∀ h, low < h → h ≤ goal → obstacle? h = none :=
    fun h hlow hgoal => absurd (UInt64.lt_of_lt_of_le hlow hgoal) hge
  have hreached := Ending.reached hnone
  rwa [max_of_ge hle, heights_of_le hle,
    Nat.sub_eq_zero_of_le (UInt64.le_iff_toNat_le.mp hle)] at hreached

/-- It ends at once. -/
theorem at_once (hlt : low < goal) {cause : MonitorError} (h : obstacle? (low + 1) = some cause) :
    Ending obstacle? low goal (.error cause) low [low + 1] := by
  obtain ⟨habove, hgoal⟩ := succ_above hlt
  have hnone : ∀ k, low < k → k < low + 1 → obstacle? k = none :=
    fun k hlow hk => absurd (UInt64.lt_of_le_of_lt (succ_above hlow).2 hk) (UInt64.lt_irrefl _)
  have hstuck := Ending.stuck habove hgoal hnone h
  rwa [heights_succ hlt, UInt64.add_sub_cancel] at hstuck

/-- One block more in front. -/
theorem step (hlt : low < goal) (hnext : obstacle? (low + 1) = none)
    (hlater : ∀ h, low + 1 < h → onward? h = obstacle? h)
    (h : Ending onward? (low + 1) goal result top asked) :
    Ending obstacle? low goal (result.map (· + 1)) top ((low + 1) :: asked) := by
  obtain ⟨habove, hgoal⟩ := succ_above hlt
  -- the next height has its block, and for those above it nothing has changed
  have hnone {k : UInt64} (hlow : low < k) (hk : low + 1 < k → onward? k = none) :
      obstacle? k = none := by
    by_cases heq : k = low + 1
    · rw [heq, hnext]
    · have hlt' : low + 1 < k := UInt64.lt_of_le_of_ne (succ_above hlow).2 (Ne.symm heq)
      rw [← hlater k hlt', hk hlt']
  cases h with
  | reached hall =>
    have hreached := Ending.reached fun k hlow hk => hnone hlow fun hlt' => hall k hlt' hk
    have hbelow : low.toNat < goal.toNat := UInt64.lt_iff_toNat_lt.mp hlt
    have hcount : goal.toNat - low.toNat = goal.toNat - (low + 1).toNat + 1 := by
      rw [toNat_succ hlt]
      omega
    rw [hcount, heights_cons hlt, max_of_le (UInt64.le_of_lt hlt)] at hreached
    rwa [max_of_le hgoal]
  | @stuck h cause hlow hh hall hcause =>
    have hlow' := UInt64.lt_trans habove hlow
    have hstuck := Ending.stuck hlow' hh
      (fun k hk hkh => hnone hk fun hlt' => hall k hlt' hkh) ((hlater h hlow).symm.trans hcause)
    rwa [heights_cons hlow'] at hstuck

end Ending

/-! ## What keeps a provider -/

section

variable {σ : Type} (p : Provider σ)

/-- Why an answer brings no block, for the height it was asked for. -/
def obstacle (h : UInt64) : Except ProviderError (Option Block) → Option MonitorError
  | .error cause => some (.provider cause)
  | .ok none => some (.missingBlock h)
  | .ok (some _) => none

/-- The state of a provider after the blocks at these heights were asked for. -/
def Provider.after (chain : σ) (asked : List UInt64) : σ :=
  asked.foldl (fun chain h => (p.block h chain).2) chain

/-- Why a provider gives no block for a height above `low`, when all those in between were asked for
before. -/
def Provider.obstacle? (low : UInt64) (chain : σ) (h : UInt64) : Option MonitorError :=
  obstacle h (p.block h (p.after chain (heights low (h - 1)))).1.answer

theorem obstacle?_succ (low : UInt64) (chain : σ) :
    p.obstacle? low chain (low + 1) = obstacle (low + 1) (p.block (low + 1) chain).1.answer := by
  unfold Provider.obstacle?
  rw [UInt64.add_sub_cancel, heights_self]
  rfl

theorem obstacle?_of_succ_lt {low goal h : UInt64} (hlt : low < goal) (hh : low + 1 < h)
    (chain : σ) :
    p.obstacle? (low + 1) (p.block (low + 1) chain).2 h = p.obstacle? low chain h := by
  have hlow : low < h - 1 := by
    have hh' : (low + 1).toNat < h.toNat := UInt64.lt_iff_toNat_lt.mp hh
    rw [toNat_succ hlt] at hh'
    have hone : 1 ≤ h := by
      rw [UInt64.le_iff_toNat_le, UInt64.toNat_one]
      omega
    rw [UInt64.lt_iff_toNat_lt, UInt64.toNat_sub_of_le _ _ hone, UInt64.toNat_one]
    omega
  unfold Provider.obstacle?
  rw [heights_cons hlow]
  rfl

variable {p}

/-- How catching up ends. -/
theorem ending_catchUp (goal : UInt64) (m : Monitor) (r : Recorded σ) :
    ∃ asked,
      (catchUp p.recorded goal m r).chain.questions = r.questions ++ asked.map Question.block ∧
      Ending (p.obstacle? m.height r.chain) m.height goal (catchUp p.recorded goal m r).result
        (catchUp p.recorded goal m r).monitor.height asked := by
  -- along the loop: each question either ends it or is the first one of those that are asked
  fun_induction catchUp p.recorded goal m r with
  | case1 m r hlt next reply r' hreply m' cause hanswer =>
    obtain ⟨rfl, rfl⟩ := Prod.mk.inj hreply
    refine ⟨[next], r.questions_note _ _, Ending.at_once hlt ?_⟩
    rw [obstacle?_succ, show (p.block _ _).1.answer = _ from hanswer]
    rfl
  | case2 m r hlt next reply r' hreply m' hanswer =>
    obtain ⟨rfl, rfl⟩ := Prod.mk.inj hreply
    refine ⟨[next], r.questions_note _ _, Ending.at_once hlt ?_⟩
    rw [obstacle?_succ, show (p.block _ _).1.answer = _ from hanswer]
    rfl
  | case3 m r hlt next reply r' hreply m' b hanswer processed rest ih =>
    obtain ⟨rfl, rfl⟩ := Prod.mk.inj hreply
    obtain ⟨asked, hquestions, hending⟩ := ih
    refine ⟨next :: asked, ?_, ?_⟩
    · rw [hquestions, r.questions_note, List.append_assoc]
      rfl
    · have hnext : p.obstacle? m.height r.chain (m.height + 1) = none := by
        rw [obstacle?_succ, show (p.block _ _).1.answer = _ from hanswer]
        rfl
      exact hending.step hlt hnext fun h hh => obstacle?_of_succ_lt p hlt hh r.chain
  | case4 m r hlt =>
    exact ⟨[], (List.append_nil _).symm, Ending.of_not_lt hlt⟩

/-- How a poll comes out that is to come up to `goal`: it asks for the height of the chain, then for
the blocks above the height of the monitor, and it ends as `Ending` says. -/
def ComesOut (obstacle? : UInt64 → Option MonitorError) (goal : UInt64) (m : Monitor)
    (polled : Polled (Recorded σ)) : Prop :=
  ∃ asked : List UInt64,
    polled.chain.questions = .height :: asked.map .block ∧
    asked.map UInt64.toNat = List.range' (m.height.toNat + 1) asked.length ∧
    Ending obstacle? m.height goal polled.result polled.monitor.height asked

theorem comesOut_poll {goal : UInt64} (m : Monitor) {chain : σ}
    (h : (p.height chain).1.answer = .ok goal) :
    ComesOut (p.obstacle? m.height (p.height chain).2) goal m (poll p.recorded m ⟨chain, []⟩) := by
  have hanswer : (p.recorded.height ⟨chain, []⟩).1.answer = .ok goal := h
  rw [poll_of_height hanswer]
  obtain ⟨asked, hquestions, hending⟩ := ending_catchUp (p := p) goal
    (m.heed (p.height chain).1.requests) (p.recorded.height ⟨chain, []⟩).2
  exact ⟨asked, hquestions, hending.map_toNat_asked, hending⟩

end

/-! ## A chain in memory -/

/-- Why a chain in memory has no block for a height when these blocks were put into it. -/
def unstored (blocks : List Block) (h : UInt64) : Option MonitorError :=
  if ∃ b ∈ blocks, b.index = h then none else some (.missingBlock h)

theorem after_store (s : Store) (asked : List UInt64) : storeProvider.after s asked = s := by
  induction asked with
  | nil => rfl
  | cons h asked ih => exact ih

theorem obstacle?_store (blocks : List Block) (low : UInt64) :
    storeProvider.obstacle? low (Store.ofBlocks blocks) = unstored blocks := by
  funext h
  unfold Provider.obstacle? unstored
  rw [after_store]
  show obstacle h (.ok ((Store.ofBlocks blocks).block? h)) = _
  by_cases hstored : ∃ b ∈ blocks, b.index = h
  · rw [if_pos hstored]
    obtain ⟨b, hb, rfl⟩ := hstored
    obtain ⟨held, hheld⟩ := Store.exists_block?_ofBlocks hb
    rw [hheld]
    rfl
  · have hnone : (Store.ofBlocks blocks).block? h = none :=
      Store.block?_ofBlocks_eq_none_iff.mpr fun b hb hindex => hstored ⟨b, hb, hindex⟩
    rw [if_neg hstored, hnone]
    rfl

/-- **What a poll does.** If the provider cannot tell the height of the chain, that is all that is
asked: its failure is what the poll returns, and of the monitor nothing has changed but what other
tasks did to its control. Else the poll comes out as what keeps the provider from giving each block has
it, and the heights that it asks for are numbers that follow one another and do not overflow. This is
seen from the questions that the provider remembers, and they change nothing.

The chain in memory of some blocks, with others put into it later, is as high as the highest of them
all, and what keeps it from giving a block is only that none was put in at that height. -/
theorem poll_exact {σ : Type} (p : Provider σ) (m : Monitor) (chain : σ)
    (bs later : List Block) :
    let polled := poll p.recorded m ⟨chain, []⟩
    let s := later.foldl Store.put (Store.ofBlocks bs)
    (polled.map Recorded.chain = poll p m chain ∧
      match (p.height chain).1.answer with
      | .error cause =>
        polled.monitor = m.heed (p.height chain).1.requests ∧
        polled.result = .error (.provider cause) ∧ polled.chain.questions = [.height]
      | .ok goal => ComesOut (p.obstacle? m.height (p.height chain).2) goal m polled) ∧
    (bs ++ later = [] ∧ s.height = 0 ∨
      (∃ b ∈ bs ++ later, b.index = s.height) ∧ ∀ b ∈ bs ++ later, b.index ≤ s.height) ∧
    ComesOut (unstored (bs ++ later)) s.height m (poll storeProvider.recorded m ⟨s, []⟩) := by
  intro polled s
  constructor
  · refine ⟨poll_recorded p m ⟨chain, []⟩, ?_⟩
    cases hanswer : (p.height chain).1.answer with
    | error cause =>
      have hrefused : (p.recorded.height ⟨chain, []⟩).1.answer = .error cause := hanswer
      unfold polled
      rw [poll_of_refused hrefused]
      exact ⟨rfl, rfl, rfl⟩
    | ok goal => exact comesOut_poll m hanswer
  · have hall : s = Store.ofBlocks (bs ++ later) := List.foldl_append.symm
    rw [hall]
    constructor
    · by_cases hempty : bs ++ later = []
      · refine Or.inl ⟨hempty, ?_⟩
        rw [hempty]
        exact Store.height_empty
      · exact Or.inr ⟨Store.exists_index_eq_height hempty,
          (Store.height_ofBlocks_le_iff _ _).mp (UInt64.le_refl _)⟩
    · rw [← obstacle?_store _ m.height]
      exact comesOut_poll m rfl

end Registrar.Monitor
