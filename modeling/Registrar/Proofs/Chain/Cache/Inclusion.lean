import Mathlib
import Registrar.Proofs.Chain.Cache.Coherence

/-!
# More room loses nothing

Two caches of which one has more room, asked the same from the beginning: the larger one holds
whatever the smaller one holds and finds whatever that one finds. The two orders of use drift apart,
for a look-up that only the larger cache can answer changes only its order; but the smaller order
stays a part of the larger one. That no eviction breaks this needs one fact more: as long as the
smaller cache has room left, both hold the same number.
-/

namespace Registrar.Chain

namespace Cache

/-! ## Orders of use -/

/-- If of a list at least as much is cut off as of one that it is a part of, it stays a part. -/
theorem take_sublist_take {α : Type} {xs ys : List α} {m n : Nat} (h : xs.Sublist ys)
    (hcut : ys.length - n ≤ xs.length - m) : (xs.take m).Sublist (ys.take n) := by
  -- what `xs` has in the cut part of `ys` is no longer than the cut part of `xs`
  rw [← List.take_append_drop n ys, List.sublist_append_iff] at h
  obtain ⟨front, back, rfl, hfront, hback⟩ := h
  have hlength := hback.length_le
  rw [List.length_drop] at hlength
  rw [List.length_append] at hcut
  by_cases hm : m ≤ front.length
  · rw [List.take_append_of_le_length hm]
    exact (List.take_sublist m front).trans hfront
  · have hnil : back = [] := List.eq_nil_of_length_eq_zero (by omega)
    subst hnil
    rw [List.append_nil]
    exact (List.take_sublist m front).trans hfront

section bring

variable {room more : Nat} {hash : String} {small large : List String}

/-- A use keeps a shorter order a part of a longer one. -/
theorem bring_sublist (hle : room ≤ more) (hsub : small.Sublist large)
    (hlarge : large.length ≤ more) (hfull : small.length = large.length ∨ small.length = room) :
    (bring room hash small).Sublist (bring more hash large) := by
  have hother := hsub.filter (· ≠ hash)
  apply take_sublist_take (hother.cons_cons hash)
  rw [List.length_cons, List.length_cons]
  by_cases hmem : hash ∈ large
  · have hless : (large.filter (· ≠ hash)).length < large.length :=
      List.length_filter_lt_length_iff_exists.mpr ⟨hash, hmem, by simp⟩
    omega
  · -- the hash is in neither list, so if the longer one is cut the shorter one is full
    rw [filter_ne_of_not_mem hmem, filter_ne_of_not_mem (mt (fun hin => hsub.subset hin) hmem)]
    omega

/-- While the shorter order is not full, both are equally long. -/
theorem length_bring_eq_or (hroom : 0 < room) (hle : room ≤ more) (hsub : small.Sublist large)
    (hnodup : small.Nodup) (hfull : small.length = large.length ∨ small.length = room) :
    (bring room hash small).length = (bring more hash large).length
      ∨ (bring room hash small).length = room := by
  rcases hfull with hsame | hsmall
  · cases hsub.eq_of_length hsame
    simp only [bring, List.length_take]
    omega
  · right
    by_cases hmem : hash ∈ small
    · rw [length_bring_of_mem hnodup hsmall.le hmem, hsmall]
    · rw [length_bring_of_not_mem hroom hmem]
      omega

end bring

/-! ## Two caches -/

/-- A cache that holds nothing that another one does not hold too, and has found no more and kept
no more than it. -/
structure Within (small large : Cache) : Prop where
  small_coherent : Coherent small
  large_coherent : Coherent large
  capacity_le : small.capacity ≤ large.capacity
  sublist : small.recency.Sublist large.recency
  /-- As long as the smaller one has room left, both hold the same number. -/
  full : small.recency.length = large.recency.length ∨ small.recency.length = small.capacity
  held : ∀ hash tx, small.held? hash = some tx → large.held? hash = some tx
  hits_le : small.stats.hits ≤ large.stats.hits
  evictions_le : large.stats.evictions ≤ small.stats.evictions

namespace Within

variable {small large : Cache}

theorem insert (h : Within small large) (tx : Transaction) :
    Within (small.insert tx) (large.insert tx) where
  small_coherent := h.small_coherent.insert tx
  large_coherent := h.large_coherent.insert tx
  capacity_le := by
    rw [capacity_insert, capacity_insert]
    exact h.capacity_le
  sublist := by
    rw [h.small_coherent.recency_insert, h.large_coherent.recency_insert]
    exact bring_sublist h.capacity_le h.sublist h.large_coherent.length_le h.full
  full := by
    rw [h.small_coherent.recency_insert, h.large_coherent.recency_insert,
      capacity_insert]
    exact length_bring_eq_or h.small_coherent.capacity_pos h.capacity_le h.sublist
      h.small_coherent.nodup h.full
  held hash held hheld := by
    rw [h.small_coherent.held?_insert, h.small_coherent.recency_insert] at hheld
    rw [h.large_coherent.held?_insert, h.large_coherent.recency_insert]
    by_cases hsame : hash = tx.hash
    · rw [if_pos hsame] at hheld ⊢
      exact hheld
    · rw [if_neg hsame] at hheld ⊢
      have hsub : (bring small.capacity tx.hash small.recency).Sublist
          (bring large.capacity tx.hash large.recency) :=
        bring_sublist h.capacity_le h.sublist h.large_coherent.length_le h.full
      split_ifs at hheld with hmem
      rw [if_pos (hsub.subset hmem)]
      exact h.held hash held hheld
  hits_le := by
    rw [h.small_coherent.stats_insert, h.large_coherent.stats_insert]
    exact h.hits_le
  evictions_le := by
    rw [h.small_coherent.stats_insert, h.large_coherent.stats_insert]
    apply Nat.add_le_add h.evictions_le
    -- if the larger cache is full and does not hold the hash, so it is with the smaller one
    have hforced : tx.hash ∉ large.recency ∧ large.recency.length = large.capacity →
        tx.hash ∉ small.recency ∧ small.recency.length = small.capacity := by
      rintro ⟨hmem, hlarge⟩
      have hle := h.capacity_le
      have hlength := h.small_coherent.length_le
      have hfull := h.full
      exact ⟨mt (fun hin => h.sublist.subset hin) hmem, by omega⟩
    split_ifs with hlarge hsmall
    · exact Nat.le_refl 1
    · exact absurd (hforced hlarge) hsmall
    · exact Nat.zero_le 1
    · exact Nat.le_refl 0

theorem get (h : Within small large) (hash : String) :
    Within (small.get hash).2 (large.get hash).2 where
  small_coherent := h.small_coherent.get hash
  large_coherent := h.large_coherent.get hash
  capacity_le := by
    rw [capacity_get, capacity_get]
    exact h.capacity_le
  sublist := by
    rw [h.small_coherent.recency_get, h.large_coherent.recency_get]
    by_cases hsmall : hash ∈ small.recency
    · rw [if_pos hsmall, if_pos (h.sublist.subset hsmall)]
      exact bring_sublist h.capacity_le h.sublist h.large_coherent.length_le h.full
    · rw [if_neg hsmall]
      by_cases hlarge : hash ∈ large.recency
      · -- only the larger cache finds it, and moves nothing that the smaller one holds
        rw [if_pos hlarge, bring_of_mem h.large_coherent.length_le hlarge]
        have hothers := h.sublist.filter (· ≠ hash)
        rw [filter_ne_of_not_mem hsmall] at hothers
        exact hothers.cons hash
      · rw [if_neg hlarge]
        exact h.sublist
  full := by
    have hlength {c : Cache} (hc : Coherent c) :
        (c.get hash).2.recency.length = c.recency.length := by
      rw [hc.recency_get]
      split_ifs with hmem
      · exact length_bring_of_mem hc.nodup hc.length_le hmem
      · rfl
    rw [hlength h.small_coherent, hlength h.large_coherent, capacity_get]
    exact h.full
  held other tx hheld := by
    rw [held?_get] at hheld ⊢
    exact h.held other tx hheld
  hits_le := by
    have hhits := h.hits_le
    rw [h.small_coherent.stats_get, h.large_coherent.stats_get]
    by_cases hsmall : hash ∈ small.recency
    · rw [if_pos hsmall, if_pos (h.sublist.subset hsmall)]
      exact Nat.succ_le_succ hhits
    · rw [if_neg hsmall]
      split_ifs
      · exact Nat.le_succ_of_le hhits
      · exact hhits
  evictions_le := by
    rw [h.small_coherent.stats_get, h.large_coherent.stats_get]
    split_ifs <;> exact h.evictions_le

theorem performAll (h : Within small large) (ops : List Operation) :
    Within (small.performAll ops) (large.performAll ops) := by
  induction ops generalizing small large with
  | nil => exact h
  | cons op ops ih =>
    apply ih
    cases op with
    | insert tx => exact h.insert tx
    | get hash => exact h.get hash
    | contains hash => exact h

theorem withCapacity {room more : Nat} (h : room ≤ more) :
    Within (withCapacity room) (withCapacity more) where
  small_coherent := Coherent.withCapacity room
  large_coherent := Coherent.withCapacity more
  capacity_le := max_le_max_right 1 h
  sublist := List.Sublist.refl _
  full := Or.inl rfl
  held _ _ hheld := hheld
  hits_le := Nat.le_refl 0
  evictions_le := Nat.le_refl 0

end Within

/-- **More room loses nothing.** Two new caches, asked the same: whatever the one with less room
holds, the other one holds too, and in the same order of use; what it finds, the other one finds. So
the larger cache has at least as many hits and no more evictions. As the operations are any, this
holds at each moment of a longer history. -/
theorem larger_holds_more {room more : Nat} (h : room ≤ more) (ops : List Operation) :
    let small := (withCapacity room).performAll ops
    let large := (withCapacity more).performAll ops
    (∀ hash tx, small.held? hash = some tx → large.held? hash = some tx)
      ∧ small.recency.Sublist large.recency
      ∧ (∀ hash tx, (small.get hash).1 = some tx → (large.get hash).1 = some tx)
      ∧ small.stats.hits ≤ large.stats.hits
      ∧ large.stats.evictions ≤ small.stats.evictions := by
  intro small large
  have hwithin : Within small large := (Within.withCapacity h).performAll ops
  refine ⟨hwithin.held, hwithin.sublist, ?_, hwithin.hits_le, hwithin.evictions_le⟩
  intro hash tx hfound
  rw [get_fst] at hfound ⊢
  exact hwithin.held hash tx hfound

/-- Two transactions come in and the first is looked up. -/
def revisited : List Operation :=
  [.insert ⟨"a", .miner, []⟩, .insert ⟨"b", .miner, []⟩, .get "a"]

/-- No room counts as room for one. Of the two transactions the smaller cache has only the second
left, the larger one has both, and the look-up has put the first before it. -/
theorem larger_holds_more_revisited :
    let small := (withCapacity 0).performAll revisited
    let large := (withCapacity 2).performAll revisited
    small.recency = ["b"] ∧ large.recency = ["a", "b"] ∧ small.recency.Sublist large.recency
      ∧ small.held? "b" = some ⟨"b", .miner, []⟩ ∧ large.held? "b" = some ⟨"b", .miner, []⟩
      ∧ small.stats.hits ≤ large.stats.hits ∧ large.stats.evictions ≤ small.stats.evictions := by
  intro small large
  obtain ⟨hheld, hsublist, _, hhits, hevictions⟩ :=
    larger_holds_more (Nat.zero_le 2) revisited
  have hsmall : small.held? "b" = some ⟨"b", .miner, []⟩ := by decide +kernel
  exact ⟨by decide +kernel, by decide +kernel, hsublist, hsmall, hheld _ _ hsmall, hhits,
    hevictions⟩

end Cache

end Registrar.Chain
