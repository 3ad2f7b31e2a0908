import Mathlib
import Registrar.Proofs.Monitor.History
import Registrar.Proofs.Monitor.Recording

/-!
# What is told of the blocks

The entries at the level of information are the account that a monitor gives of its work: a line for
each attempt to register a mailbox, and one for each processed block. `Tells` is a stretch of polling
whose entries are the account of just the blocks that were fetched in it. It composes, so it holds of
one block, of a poll wherever it ends, and of any number of polls of a chain in memory into which others
put blocks all the while.
-/

namespace Registrar

open Chain (Block Store Transaction)
open Mailbox (Registration)

/-- The entries that tell what happened. -/
def infos (journal : Journal) : Journal :=
  journal.filter fun e => e.level = .info

@[simp] theorem infos_append (journal journal' : Journal) :
    infos (journal ++ journal') = infos journal ++ infos journal' :=
  List.filter_append _ _

/-! ## One block -/

/-- What is told of an attempt to register a mailbox. -/
def Mailbox.Registration.entry (r : Registration) : Entry :=
  info ("(" ++ r.address.address ++ ", " ++ r.name ++ ") => " ++ r.outcome.message)

/-- A call is told of just if it is such an attempt. -/
theorem Mailbox.Effect.infos_entry (e : Mailbox.Effect) :
    infos [e.entry] = e.registration?.toList.map Registration.entry := by
  cases e <;> rfl

/-- What is noted in reading a script is not told. -/
theorem Contract.infos_extract (contract : Option ScriptHash) (code : List Script.Instruction) :
    infos (extract contract code).journal = [] := by
  have hreadings (readings : List Reading) : infos (Extraction.ofReadings readings).journal = [] := by
    induction readings with
    | nil => rfl
    | cons reading readings ih =>
      cases reading with
      | call c => exact ih
      | skipped reason => cases reason <;> exact ih
      | underflow fault => rfl
  cases contract with
  | none => rfl
  | some contract => exact hreadings _

namespace Monitor

namespace Scan

/-- Whether what a scan has told is just the attempts that it has found. -/
def Told (s : Scan) : Prop :=
  infos s.journal = s.registrations.map Registration.entry

namespace Told

variable {s : Scan}

theorem call (h : s.Told) (c : Contract.Call) : (s.call c).Told := by
  show infos (s.journal ++ [(s.registry.dispatch c).1.entry])
    = (s.registrations ++ (s.registry.dispatch c).1.registration?.toList).map Registration.entry
  rw [infos_append, Mailbox.Effect.infos_entry, List.map_append, show infos s.journal = _ from h]

theorem calls (h : s.Told) (calls : List Contract.Call) : (calls.foldl Scan.call s).Told := by
  induction calls generalizing s with
  | nil => exact h
  | cons c calls ih => exact ih (h.call c)

/-- Other notes tell nothing, and neither do counts. -/
theorem note (h : s.Told) (stats : Stats) {notes : Journal} (hnotes : infos notes = []) :
    Told { s with stats, journal := s.journal ++ notes } := by
  show infos (s.journal ++ notes) = _
  rw [infos_append, hnotes, List.append_nil]
  exact h

theorem fail (h : s.Told) (tx : Transaction) (message : String) : (s.fail tx message).Told :=
  h.note _ rfl

theorem transaction (h : s.Told) (contract : Option ScriptHash) (tx : Transaction) :
    (Scan.transaction contract s tx).Told := by
  unfold Scan.transaction
  cases Script.disassemble tx.script with
  | error cause => exact h.note _ rfl
  | ok code =>
    have hnoted := h.note
      { s.stats with transactionsScanned := s.stats.transactionsScanned + 1 }
      (Contract.infos_extract contract code)
    simp only
    cases (Contract.extract contract code).result with
    | error cause => exact hnoted.fail tx cause.message
    | ok calls => exact hnoted.calls calls

theorem transactions (h : s.Told) (contract : Option ScriptHash) (txs : List Transaction) :
    (txs.foldl (Scan.transaction contract) s).Told := by
  induction txs generalizing s with
  | nil => exact h
  | cons tx txs ih => exact ih (h.transaction contract tx)

end Told

end Scan

/-- What is to be told of blocks with the attempts in each. -/
def account (reports : List (Block × List Registration)) : Journal :=
  reports.flatMap fun (b, registrations) =>
    registrations.map Registration.entry ++ [info ("Processed block " ++ toString b.index.toNat)]

theorem infos_processBlock (m : Monitor) (b : Block) :
    infos (m.processBlock b).journal = account (m.reports [b]) := by
  have hstart : Scan.Told ⟨m.registry, m.stats, [], []⟩ := rfl
  have htold : (m.scan b.transactions).Told := hstart.transactions _ _
  rw [reports, reports, account, List.flatMap_singleton]
  show infos ((m.scan b.transactions).journal ++ [_]) = _
  rw [infos_append, show infos _ = _ from htold]
  rfl

/-! ## Stretches of polling -/

/-- A stretch of polling from `m` to `m'` in which these blocks were fetched, each after the height for
which it was asked, and these notes made: the blocks stand at the next heights and are what was
processed, and the account of them is what was told. -/
structure Tells (m : Monitor) (fetched : List (UInt64 × Block)) (journal : Journal) (m' : Monitor) :
    Prop where
  climbs : Climbs m (fetched.map Prod.snd) m'
  heights : fetched.map Prod.fst = heights m.height m'.height
  indexed : ∀ entry ∈ fetched, entry.2.index = entry.1
  infos : infos journal = account (m.reports (fetched.map Prod.snd))

theorem Climbs.height_le {m m' : Monitor} {bs : List Block} (h : Climbs m bs m') :
    m.height ≤ m'.height := by
  rw [UInt64.le_iff_toNat_le, h.height]
  exact Nat.le_add_right _ _

namespace Tells

variable {m m' m'' : Monitor} {fetched fetched' : List (UInt64 × Block)}
  {journal journal' : Journal}

/-- What other tasks do to the control is not told. -/
theorem control (m : Monitor) (control : Control) : Tells m [] [] { m with control } where
  climbs := Climbs.control m control
  heights := (heights_self m.height).symm
  indexed := by simp
  infos := rfl

theorem trans (h : Tells m fetched journal m') (h' : Tells m' fetched' journal' m'') :
    Tells m (fetched ++ fetched') (journal ++ journal') m'' where
  climbs := by
    rw [List.map_append]
    exact h.climbs.trans h'.climbs
  heights := by
    have hle : m.height ≤ m'.height := h.climbs.height_le
    have hle' : m'.height ≤ m''.height := h'.climbs.height_le
    rw [List.map_append, h.heights, h'.heights, heights_append hle hle']
  indexed := by
    rw [List.forall_mem_append]
    exact ⟨h.indexed, h'.indexed⟩
  infos := by
    rw [infos_append, h.infos, h'.infos, List.map_append, reports_append,
      h.climbs.work.books.reports]
    exact List.flatMap_append.symm

theorem block {goal : UInt64} (hlt : m.height < goal) {b : Block} (hb : b.index = m.height + 1) :
    Tells m [(m.height + 1, b)] (m.processBlock b).journal
      { (m.processBlock b).monitor with height := m.height + 1 } where
  climbs := Climbs.block hlt b
  heights := (heights_succ hlt).symm
  indexed := by simpa using hb
  infos := infos_processBlock m b

end Tells

/-- Whether a provider, from this state on, gives no block but one that stands at the height for which
it is asked. -/
def Indexes {σ : Type} (p : Provider σ) (chain : σ) : Prop :=
  ∀ chain', Reaches p chain chain' →
    ∀ h b, (p.block h chain').1.answer = .ok (some b) → b.index = h

section

variable {σ : Type} {p : Provider σ}

theorem Indexes.height {chain : σ} (h : Indexes p chain) : Indexes p (p.height chain).2 :=
  fun chain' hreach => h chain' hreach.height

theorem Indexes.block {chain : σ} (h : Indexes p chain) (n : UInt64) :
    Indexes p (p.block n chain).2 :=
  fun chain' hreach => h chain' (hreach.block n)

theorem reaches_catchUp (goal : UInt64) (m : Monitor) (chain : σ) :
    Reaches p chain (catchUp p goal m chain).chain := by
  fun_induction catchUp p goal m chain with
  | case1 m chain hlt next reply chain' hreply m' cause hanswer =>
    obtain ⟨rfl, rfl⟩ := Prod.mk.inj hreply
    exact .block next (.refl _)
  | case2 m chain hlt next reply chain' hreply m' hanswer =>
    obtain ⟨rfl, rfl⟩ := Prod.mk.inj hreply
    exact .block next (.refl _)
  | case3 m chain hlt next reply chain' hreply m' b hanswer processed rest ih =>
    obtain ⟨rfl, rfl⟩ := Prod.mk.inj hreply
    exact .block next ih
  | case4 m chain hlt => exact .refl chain

/-- A poll makes nothing of the provider's state but what questions make of it. -/
theorem reaches_poll (m : Monitor) (chain : σ) : Reaches p chain (poll p m chain).chain := by
  apply Reaches.height
  cases hanswer : (p.height chain).1.answer with
  | error cause =>
    rw [poll_of_refused hanswer]
    exact .refl _
  | ok goal =>
    rw [poll_of_height hanswer]
    exact reaches_catchUp goal _ _

/-- Wherever catching up ends, what was told is the account of what was fetched. -/
theorem tells_catchUp (goal : UInt64) (m : Monitor) (r : Recorded σ) (h : Indexes p r.chain) :
    ∃ fetched,
      (catchUp p.recorded goal m r).chain.fetched = r.fetched ++ fetched ∧
      Tells m fetched (catchUp p.recorded goal m r).journal
        (catchUp p.recorded goal m r).monitor := by
  -- along the loop: a question without a block ends it, and nothing is told of that height
  fun_induction catchUp p.recorded goal m r with
  | case1 m r hlt next reply r' hreply m' cause hanswer =>
    obtain ⟨rfl, rfl⟩ := Prod.mk.inj hreply
    refine ⟨[], ?_, Tells.control m _⟩
    rw [Recorded.fetched_note, hanswer]
    rfl
  | case2 m r hlt next reply r' hreply m' hanswer =>
    obtain ⟨rfl, rfl⟩ := Prod.mk.inj hreply
    refine ⟨[], ?_, Tells.control m _⟩
    rw [Recorded.fetched_note, hanswer]
    rfl
  | case3 m r hlt next reply r' hreply m' b hanswer processed rest ih =>
    obtain ⟨rfl, rfl⟩ := Prod.mk.inj hreply
    obtain ⟨fetched, hfetched, htells⟩ := ih (h.block next)
    have hindex : b.index = next := h r.chain (.refl _) next b hanswer
    have hheed : Tells m [] [] m' := Tells.control m _
    have hblock : Tells m' [(next, b)] processed.journal { processed.monitor with height := next } :=
      Tells.block (show m'.height < goal from hlt) hindex
    refine ⟨(next, b) :: fetched, ?_, (hheed.trans hblock).trans htells⟩
    rw [hfetched, Recorded.fetched_note, hanswer, List.append_assoc]
    rfl
  | case4 m r hlt => exact ⟨[], (List.append_nil _).symm, Tells.control m m.control⟩

/-- Wherever a poll ends, what was told is the account of what was fetched. -/
theorem tells_poll (m : Monitor) (r : Recorded σ) (h : Indexes p r.chain) :
    ∃ fetched,
      (poll p.recorded m r).chain.fetched = r.fetched ++ fetched ∧
      Tells m fetched (poll p.recorded m r).journal (poll p.recorded m r).monitor := by
  have hfetched : (p.recorded.height r).2.fetched = r.fetched :=
    (r.fetched_note _ _).trans (List.append_nil _)
  have hheed : Tells m [] [] (m.heed (p.recorded.height r).1.requests) := Tells.control m _
  cases hanswer : (p.recorded.height r).1.answer with
  | error cause =>
    rw [poll_of_refused hanswer]
    exact ⟨[], hfetched.trans (List.append_nil _).symm, hheed⟩
  | ok goal =>
    rw [poll_of_height hanswer]
    obtain ⟨fetched, hlater, htells⟩ := tells_catchUp goal
      (m.heed (p.recorded.height r).1.requests) (p.recorded.height r).2 h.height
    rw [hfetched] at hlater
    exact ⟨fetched, hlater, hheed.trans htells⟩

end

/-! ## A chain that others write to -/

/-- A chain in memory into which others put blocks while it is asked. -/
structure SharedStore where
  store : Store
  /-- The blocks that come before each of the next questions. -/
  coming : List (List Block) := []

namespace SharedStore

/-- The chain at the next question. -/
def next (s : SharedStore) : SharedStore :=
  ⟨(s.coming.headD []).foldl Store.put s.store, s.coming.tail⟩

/-- Each question is answered as the chain is by then. -/
def provider : Provider SharedStore where
  height := fun s => ((storeProvider.height s.next.store).1, s.next)
  block := fun h s => ((storeProvider.block h s.next.store).1, s.next)
  transaction := fun hash s => ((storeProvider.transaction hash s.next.store).1, s.next)

/-- The blocks that the chain holds after so many questions. -/
def held (s : SharedStore) (questions : Nat) : Store :=
  (s.coming.take questions).flatten.foldl Store.put s.store

theorem held_succ (s : SharedStore) (questions : Nat) :
    s.held (questions + 1) = s.next.held questions := by
  obtain ⟨store, coming⟩ := s
  cases coming with
  | nil => simp [held, next]
  | cons bs coming => exact List.foldl_append

/-- In catching up each block is fetched from what the chain holds after the questions for the heights
up to it. -/
theorem held_catchUp (goal : UInt64) (m : Monitor) (r : Recorded SharedStore) :
    ∀ entry ∈ (catchUp provider.recorded goal m r).chain.fetched, entry ∈ r.fetched ∨
      m.height < entry.1 ∧
        (r.chain.held (entry.1.toNat - m.height.toNat)).block? entry.1 = some entry.2 := by
  -- along the loop: an entry is the next one, or it is met later and one question is spent before it
  fun_induction catchUp provider.recorded goal m r with
  | case1 m r hlt next reply r' hreply m' cause hanswer =>
    obtain ⟨rfl, rfl⟩ := Prod.mk.inj hreply
    intro entry hentry
    rw [Recorded.fetched_note, hanswer] at hentry
    exact .inl (by simpa [Answered.fetched?] using hentry)
  | case2 m r hlt next reply r' hreply m' hanswer =>
    obtain ⟨rfl, rfl⟩ := Prod.mk.inj hreply
    intro entry hentry
    rw [Recorded.fetched_note, hanswer] at hentry
    exact .inl (by simpa [Answered.fetched?] using hentry)
  | case3 m r hlt next reply r' hreply m' b hanswer processed rest ih =>
    obtain ⟨rfl, rfl⟩ := Prod.mk.inj hreply
    have hsucc : next.toNat = m.height.toNat + 1 := toNat_succ hlt
    intro entry hentry
    rcases ih entry hentry with hnoted | ⟨habove, hheld⟩
    · rw [Recorded.fetched_note, hanswer] at hnoted
      rcases List.mem_append.mp hnoted with hbefore | hnow
      · exact .inl hbefore
      · obtain rfl : entry = (next, b) := List.mem_singleton.mp hnow
        right
        constructor
        · show m.height < next
          rw [UInt64.lt_iff_toNat_lt]
          omega
        · show (r.chain.held (next.toNat - m.height.toNat)).block? next = some b
          rw [hsucc, Nat.add_sub_cancel_left, held_succ]
          exact Except.ok.inj hanswer
    · right
      have hnext : next < entry.1 := habove
      rw [UInt64.lt_iff_toNat_lt] at hnext ⊢
      have hquestions : entry.1.toNat - m.height.toNat = entry.1.toNat - next.toNat + 1 := by
        omega
      constructor
      · omega
      · rw [hquestions, held_succ]
        exact hheld
  | case4 m r hlt =>
    intro entry hentry
    exact .inl hentry

/-- In a poll the height of the chain is asked for before that. -/
theorem held_poll (m : Monitor) (s : SharedStore) :
    ∀ entry ∈ (poll provider.recorded m ⟨s, []⟩).chain.fetched, m.height < entry.1 ∧
      (s.held (entry.1.toNat - m.height.toNat + 1)).block? entry.1 = some entry.2 := by
  have hanswer : (provider.recorded.height ⟨s, []⟩).1.answer = .ok s.next.store.height := rfl
  rw [poll_of_height hanswer]
  intro entry hentry
  rcases held_catchUp _ _ _ entry hentry with hnoted | ⟨habove, hheld⟩
  · cases hnoted
  · rw [held_succ]
    exact ⟨habove, hheld⟩

theorem indexed_of_reaches {s s' : SharedStore} (hreach : Reaches provider s s')
    (h : s.store.Indexed) : s'.store.Indexed := by
  induction hreach with
  | refl => exact h
  | height _ ih => exact ih (h.foldl_put _)
  | block _ _ ih => exact ih (h.foldl_put _)
  | transaction _ _ ih => exact ih (h.foldl_put _)

theorem indexes {s : SharedStore} (h : s.store.Indexed) : Indexes provider s := by
  intro s' hreach height b hanswer
  have hindexed : s'.next.store.Indexed := (indexed_of_reaches hreach h).foldl_put _
  exact hindexed height b (Except.ok.inj hanswer)

/-- A poll of such a chain tells of all that is fetched in it. -/
theorem tells_polled (m : Monitor) {s : SharedStore} (h : s.store.Indexed) :
    let polled := poll provider.recorded m ⟨s, []⟩
    Tells m polled.chain.fetched polled.journal polled.monitor := by
  obtain ⟨fetched, hfetched, htells⟩ := tells_poll m ⟨s, []⟩ (indexes h)
  intro polled
  rw [show polled.chain.fetched = fetched from hfetched]
  exact htells

end SharedStore

/-- A monitor and a chain in memory, with the blocks that were fetched, each after the height for which
it was asked, and what was noted. -/
structure Watch where
  monitor : Monitor
  store : Store
  fetched : List (UInt64 × Block) := []
  journal : Journal := []

namespace Watch

/-- What is done: a block is put into the chain, or the chain is polled while others put blocks into it
before each question. -/
inductive Action where
  | push (b : Block)
  | poll (meanwhile : List (List Block))

/-- What comes of an action. A poll may fail; what it has done by then stays done. -/
def act (w : Watch) : Action → Watch
  | .push b => { w with store := w.store.put b }
  | .poll meanwhile =>
    let polled := Monitor.poll SharedStore.provider.recorded w.monitor ⟨⟨w.store, meanwhile⟩, []⟩
    { monitor := polled.monitor
      store := polled.chain.chain.store
      fetched := w.fetched ++ polled.chain.fetched
      journal := w.journal ++ polled.journal }

/-- What holds all the while: what was told since the monitor was `first` is the account of what was
fetched, and the chain has each block at its own height. -/
structure Faithful (first : Monitor) (w : Watch) : Prop where
  tells : Tells first w.fetched w.journal w.monitor
  indexed : w.store.Indexed

theorem Faithful.act {first : Monitor} {w : Watch} (h : Faithful first w) (action : Action) :
    Faithful first (w.act action) := by
  cases action with
  | push b => exact ⟨h.tells, h.indexed.put b⟩
  | poll meanwhile =>
    let chain : SharedStore := ⟨w.store, meanwhile⟩
    let polled := Monitor.poll SharedStore.provider.recorded w.monitor ⟨chain, []⟩
    constructor
    · exact h.tells.trans (SharedStore.tells_polled w.monitor h.indexed)
    · have hsame : polled.chain.chain = (Monitor.poll SharedStore.provider w.monitor chain).chain :=
        congrArg Polled.chain (poll_recorded SharedStore.provider w.monitor ⟨chain, []⟩)
      show polled.chain.chain.store.Indexed
      rw [hsame]
      exact SharedStore.indexed_of_reaches (reaches_poll w.monitor chain) h.indexed

theorem Faithful.acts {first : Monitor} {w : Watch} (h : Faithful first w) (actions : List Action) :
    Faithful first (actions.foldl Watch.act w) := by
  induction actions generalizing w with
  | nil => exact h
  | cons action actions ih => exact ih (h.act action)

/-- The blocks that the chain holds when a poll asks for the one at a height: the height of the chain
and the heights up to this one have been asked for by then. -/
def chainAt (w : Watch) (meanwhile : List (List Block)) (height : UInt64) : Store :=
  SharedStore.held ⟨w.store, meanwhile⟩ (height.toNat - w.monitor.height.toNat + 1)

/-- A poll fetches blocks for heights that it gets past, each as the chain holds it by then. -/
theorem fetched_poll (w : Watch) (hindexed : w.store.Indexed) (meanwhile : List (List Block)) :
    ∀ entry ∈ (w.act (.poll meanwhile)).fetched, entry ∈ w.fetched ∨
      w.monitor.height < entry.1 ∧ entry.1 ≤ (w.act (.poll meanwhile)).monitor.height ∧
        (w.chainAt meanwhile entry.1).block? entry.1 = some entry.2 := by
  have htells := SharedStore.tells_polled (s := ⟨w.store, meanwhile⟩) w.monitor hindexed
  intro entry hentry
  rcases List.mem_append.mp hentry with hbefore | hnow
  · exact .inl hbefore
  · have hmem := List.mem_map_of_mem (f := Prod.fst) hnow
    rw [htells.heights, mem_heights] at hmem
    obtain ⟨habove, hheld⟩ := SharedStore.held_poll w.monitor ⟨w.store, meanwhile⟩ entry hnow
    exact .inr ⟨habove, hmem.2, hheld⟩

/-- So it is with each block that was fetched at all. -/
theorem fetched_acts {first : Monitor} {w : Watch} (h : Faithful first w) (actions : List Action) :
    ∀ entry ∈ (actions.foldl Watch.act w).fetched, entry ∈ w.fetched ∨
      ∃ earlier meanwhile later, actions = earlier ++ .poll meanwhile :: later ∧
        let before := earlier.foldl Watch.act w
        before.monitor.height < entry.1 ∧
          entry.1 ≤ (before.act (.poll meanwhile)).monitor.height ∧
          (before.chainAt meanwhile entry.1).block? entry.1 = some entry.2 := by
  induction actions generalizing w with
  | nil =>
    intro entry hentry
    exact .inl hentry
  | cons action actions ih =>
    intro entry hentry
    rcases ih (h.act action) entry hentry with hbefore | ⟨earlier, meanwhile, later, rfl, hheld⟩
    · cases action with
      | push b => exact .inl hbefore
      | poll meanwhile =>
        rcases w.fetched_poll h.indexed meanwhile entry hbefore with hfetched | hheld
        · exact .inl hfetched
        · exact .inr ⟨[], meanwhile, actions, rfl, hheld⟩
    · exact .inr ⟨action :: earlier, meanwhile, later, rfl, hheld⟩

end Watch

/-- **The account is true to the work.** A chain in memory is made of blocks, and then, in any order and
however often, blocks are put into it and a monitor polls it; others may put in blocks at any point of a
poll, and a poll may fail. By then the monitor has fetched a block for each height above its first one
up to its last one, once and in ascending order, each of them standing at that height, and has processed
just these. Each is the block that the chain held at its height when the poll that got past this height
asked for it. What it has told is the account of them: for each block a line for each of the attempts
that processing it returns, in their order, and then that the block at this height is processed. -/
theorem infos_faithful (m : Monitor) (bs : List Block) (actions : List Watch.Action) :
    let start : Watch := { monitor := m, store := Store.ofBlocks bs }
    let w := actions.foldl Watch.act start
    w.fetched.map Prod.fst = heights m.height w.monitor.height ∧
    (∀ entry ∈ w.fetched, entry.2.index = entry.1) ∧
    (∀ entry ∈ w.fetched, ∃ earlier meanwhile later,
      actions = earlier ++ .poll meanwhile :: later ∧
      let before := earlier.foldl Watch.act start
      before.monitor.height < entry.1 ∧
        entry.1 ≤ (before.act (.poll meanwhile)).monitor.height ∧
        (before.chainAt meanwhile entry.1).block? entry.1 = some entry.2) ∧
    SameWork w.monitor (m.processAll (w.fetched.map Prod.snd)) ∧
    infos w.journal = account (m.reports (w.fetched.map Prod.snd)) := by
  intro start w
  have hstart : Watch.Faithful m start := ⟨Tells.control m m.control, Store.Indexed.ofBlocks bs⟩
  have htells := (hstart.acts actions).tells
  refine ⟨htells.heights, htells.indexed, ?_, htells.climbs.work, htells.infos⟩
  intro entry hentry
  rcases Watch.fetched_acts hstart actions entry hentry with hnone | hheld
  · cases hnone
  · exact hheld

/-- Nothing is told of the height at which a poll fails until a later poll gets past it. -/
example :
    let actions := [.poll [], .push (bareBlock 3), .poll [], .push (bareBlock 2), .poll []]
    let w := actions.foldl Watch.act
      { monitor := newcomer, store := Store.ofBlocks [bareBlock 1] }
    w.journal = [info "Processed block 1", info "Processed block 2", info "Processed block 3"] := by
  cbv

end Monitor

end Registrar
