import Mathlib
import Registrar.Monitor.Run
import Registrar.Proofs.Monitor.EndToEnd
import Registrar.Proofs.Monitor.Polling

/-!
# What a monitor has been through

Whatever is asked of a monitor, its registry and its counts come from the blocks that it has
processed. Which blocks those are is said here for each question without the monitor's own loops: a
poll processes what the provider serves, up to the first height for which it serves nothing, and a
run is polls. `History` is any number of questions, with a log of the blocks and of what was reported
of each. It comes down to one fact: the books of the monitor are those of a new one that has
processed the blocks of the log one after the other.
-/

namespace Registrar.Monitor

open Chain (Block Transaction)
open Mailbox (Registration)

/-! ## Blocks that are served -/

/-- The blocks that a provider serves, from this state on, for the heights above `low` up to `goal`:
all of them, or those before the first one that it does not serve. -/
def Provider.served {σ : Type} (p : Provider σ) (goal low : UInt64) (chain : σ) : List Block :=
  if _h : low < goal then
    match (p.block (low + 1) chain).1.answer with
    | .ok (some b) => b :: p.served goal (low + 1) (p.block (low + 1) chain).2
    | _ => []
  else []
termination_by goal.toNat - low.toNat
decreasing_by
  have below : low.toNat < goal.toNat := UInt64.lt_iff_toNat_lt.mp _h
  have step : (low + 1).toNat = low.toNat + 1 := toNat_succ _h
  omega

section

variable {σ : Type} (p : Provider σ)

/-- The blocks that a poll processes. -/
def polled (m : Monitor) (chain : σ) : List Block :=
  match (p.height chain).1.answer with
  | .ok goal => p.served goal m.height (p.height chain).2
  | .error _ => []

/-- The blocks that a run processes in at most `polls` polls. -/
def polledOn : Nat → Monitor → σ → List Block
  | 0, _, _ => []
  | polls + 1, m, chain =>
    if m.control.running then
      polled p m chain ++
        match (poll p m chain).result with
        | .ok _ => polledOn polls (poll p m chain).monitor.pause (poll p m chain).chain
        | .error _ => []
    else []

/-! ## Climbing -/

/-- What a monitor becomes by processing blocks, each of them at the next height. -/
structure Climbs (m : Monitor) (bs : List Block) (m' : Monitor) : Prop where
  work : SameWork m' (m.processAll bs)
  height : m'.height.toNat = m.height.toNat + bs.length

namespace Climbs

variable {m m' m'' : Monitor} {bs cs : List Block}

theorem of_sameWork (hheight : m'.height = m.height) (h : SameWork m' m) : Climbs m [] m' where
  work := h
  height := by rw [hheight, List.length_nil, Nat.add_zero]

theorem refl (m : Monitor) : Climbs m [] m :=
  of_sameWork rfl (SameWork.refl m)

theorem trans (h : Climbs m bs m') (h' : Climbs m' cs m'') : Climbs m (bs ++ cs) m'' where
  work := by
    rw [processAll_append]
    exact h'.work.trans (h.work.processAll cs)
  height := by rw [h'.height, h.height, List.length_append, Nat.add_assoc]

/-- What other tasks do to the control is no climbing. -/
theorem control (m : Monitor) (control : Control) : Climbs m [] { m with control } :=
  of_sameWork rfl ⟨rfl, rfl, rfl, rfl, rfl⟩

theorem block {goal : UInt64} (hlt : m.height < goal) (b : Block) :
    Climbs m [b] { (m.processBlock b).monitor with height := m.height + 1 } where
  work := ⟨rfl, rfl, rfl, rfl, rfl⟩
  height := toNat_succ hlt

end Climbs

theorem climbs_catchUp (goal : UInt64) (m : Monitor) (chain : σ) :
    Climbs m (p.served goal m.height chain) (catchUp p goal m chain).monitor := by
  -- along the loop, which asks for one block after the other just as `served` does
  fun_induction catchUp p goal m chain with
  | case1 m chain hlt next reply chain' hreply m' cause hanswer =>
    have hserved : p.served goal m.height chain = [] := by
      rw [Provider.served, dif_pos hlt]
      simp only [show p.block (m.height + 1) chain = (reply, chain') from hreply, hanswer]
    rw [hserved]
    exact Climbs.control m _
  | case2 m chain hlt next reply chain' hreply m' hanswer =>
    have hserved : p.served goal m.height chain = [] := by
      rw [Provider.served, dif_pos hlt]
      simp only [show p.block (m.height + 1) chain = (reply, chain') from hreply, hanswer]
    rw [hserved]
    exact Climbs.control m _
  | case3 m chain hlt next reply chain' hreply m' b hanswer processed rest ih =>
    have hserved : p.served goal m.height chain = b :: p.served goal next chain' := by
      rw [Provider.served, dif_pos hlt]
      simp only [show p.block (m.height + 1) chain = (reply, chain') from hreply, hanswer]
      rfl
    rw [hserved]
    have hheed : Climbs m [] m' := Climbs.control m _
    have hblock : Climbs m' [b] { processed.monitor with height := next } :=
      Climbs.block (show m'.height < goal from hlt) b
    exact hheed.trans (hblock.trans ih)
  | case4 m chain hlt =>
    rw [Provider.served, dif_neg hlt]
    exact Climbs.refl m

/-- A poll processes the blocks that are served, whatever becomes of it. -/
theorem climbs_poll (m : Monitor) (chain : σ) :
    Climbs m (polled p m chain) (poll p m chain).monitor := by
  unfold poll polled
  obtain ⟨reply, chain'⟩ := p.height chain
  simp only
  cases reply.answer with
  | error cause => exact Climbs.control m _
  | ok goal =>
    have hheed : Climbs m [] (m.heed reply.requests) := Climbs.control m _
    exact hheed.trans (climbs_catchUp p goal (m.heed reply.requests) chain')

theorem climbs_runOn (polls : Nat) (m : Monitor) (chain : σ) :
    Climbs m (polledOn p polls m chain) (runOn p polls m chain).monitor := by
  induction polls generalizing m chain with
  | zero =>
    unfold runOn polledOn
    split <;> exact Climbs.refl m
  | succ polls ih =>
    unfold runOn polledOn
    split
    · have hpoll := climbs_poll p m chain
      simp only
      cases (poll p m chain).result with
      | error cause =>
        have hhalt := Climbs.control (poll p m chain).monitor (poll p m chain).monitor.control.stop.2
        exact hpoll.trans hhalt
      | ok count =>
        have hpause := Climbs.control (poll p m chain).monitor (poll p m chain).monitor.control.settle
        exact hpoll.trans (hpause.trans (ih (poll p m chain).monitor.pause (poll p m chain).chain))
    · exact Climbs.refl m

/-- The blocks that a run processes. -/
def ranOver (polls : Nat) (m : Monitor) (chain : σ) : List Block :=
  polledOn p polls { m with control := m.control.start.2 } chain

theorem climbs_run (polls : Nat) (m : Monitor) (chain : σ) :
    Climbs m (ranOver p polls m chain) (run p polls m chain).monitor :=
  (Climbs.control m m.control.start.2).trans
    (climbs_runOn p polls { m with control := m.control.start.2 } chain)

end

/-! ## Books -/

/-- Whether two monitors have the same books. They may differ in what they have cached, in their
heights and in their control. -/
structure SameBooks (m n : Monitor) : Prop where
  contract : m.contract = n.contract
  registry : m.registry = n.registry
  stats : m.stats = n.stats

/-- What processing blocks one after the other reports of each of them. -/
def reports (m : Monitor) : List Block → List (Block × List Registration)
  | [] => []
  | b :: bs => (b, (m.processBlock b).registrations) :: reports (m.processBlock b).monitor bs

theorem reports_append (m : Monitor) (bs cs : List Block) :
    m.reports (bs ++ cs) = m.reports bs ++ (m.processAll bs).reports cs := by
  induction bs generalizing m with
  | nil => rfl
  | cons b bs ih =>
    rw [List.cons_append, reports, ih, reports, List.cons_append]
    rfl

@[simp] theorem map_fst_reports (m : Monitor) (bs : List Block) :
    (m.reports bs).map Prod.fst = bs := by
  induction bs generalizing m with
  | nil => rfl
  | cons b bs ih => rw [reports, List.map_cons, ih]

@[simp] theorem length_reports (m : Monitor) (bs : List Block) :
    (m.reports bs).length = bs.length := by
  rw [← List.length_map Prod.fst, map_fst_reports]

namespace SameBooks

variable {l m n : Monitor}

theorem refl (m : Monitor) : SameBooks m m :=
  ⟨rfl, rfl, rfl⟩

theorem trans (h : SameBooks l m) (h' : SameBooks m n) : SameBooks l n :=
  ⟨h.contract.trans h'.contract, h.registry.trans h'.registry, h.stats.trans h'.stats⟩

theorem scan_eq (h : SameBooks m n) (txs : List Transaction) : m.scan txs = n.scan txs := by
  unfold scan target
  rw [h.contract, h.registry, h.stats]

/-- Monitors with the same books report the same of a block, and have the same books after it. -/
theorem processBlock (h : SameBooks m n) (b : Block) :
    SameBooks (m.processBlock b).monitor (n.processBlock b).monitor := by
  rw [processBlock_monitor, processBlock_monitor, h.scan_eq]
  exact ⟨h.contract, rfl, rfl⟩

theorem registrations (h : SameBooks m n) (b : Block) :
    (m.processBlock b).registrations = (n.processBlock b).registrations := by
  show (m.scan b.transactions).registrations = (n.scan b.transactions).registrations
  rw [h.scan_eq]

theorem processAll (h : SameBooks m n) (bs : List Block) :
    SameBooks (m.processAll bs) (n.processAll bs) := by
  induction bs generalizing m n with
  | nil => exact h
  | cons b bs ih => exact ih (h.processBlock b)

theorem reports (h : SameBooks m n) (bs : List Block) : m.reports bs = n.reports bs := by
  induction bs generalizing m n with
  | nil => rfl
  | cons b bs ih =>
    rw [Monitor.reports, Monitor.reports, h.registrations b, ih (h.processBlock b)]

end SameBooks

theorem SameWork.books {m n : Monitor} (h : SameWork m n) : SameBooks m n :=
  ⟨h.contract, h.registry, h.stats⟩

/-- A look-up leaves the books and the height alone. -/
theorem transaction_books {σ : Type} (p : Provider σ) (m : Monitor) (chain : σ) (hash : String) :
    SameBooks (m.transaction p chain hash).2.1 m ∧
      (m.transaction p chain hash).2.1.height = m.height := by
  unfold transaction
  obtain ⟨found, cache⟩ := m.cache.get hash
  cases found with
  | some tx => exact ⟨⟨rfl, rfl, rfl⟩, rfl⟩
  | none =>
    obtain ⟨reply, chain'⟩ := p.transaction hash chain
    simp only
    rcases reply.answer with cause | _ | tx
    · exact ⟨⟨rfl, rfl, rfl⟩, rfl⟩
    · exact ⟨⟨rfl, rfl, rfl⟩, rfl⟩
    · exact ⟨⟨rfl, rfl, rfl⟩, rfl⟩

/-! ## Histories -/

/-- What a monitor has done since it was made. -/
structure Log where
  /-- The height up to which blocks counted as processed from the beginning. -/
  start : UInt64
  /-- How many of the processed blocks the monitor was given, and did not poll. -/
  given : Nat := 0
  /-- The processed blocks, in their order, each with what was reported of it. -/
  processed : List (Block × List Registration) := []

namespace Log

/-- The processed blocks. -/
def blocks (log : Log) : List Block :=
  log.processed.map Prod.fst

/-- All that was reported. -/
def reported (log : Log) : List Registration :=
  log.processed.flatMap Prod.snd

/-- The log after a monitor has processed blocks. -/
def add (log : Log) (m : Monitor) (bs : List Block) : Log :=
  { log with processed := log.processed ++ m.reports bs }

end Log

/-- What can have become of a monitor since it was made, by whatever was asked of it and of whatever
providers, and what it has done for that. -/
inductive History : Monitor → Log → Prop where
  | create {deployment : Option Transaction} {config : Config} {m : Monitor} {journal : Journal} :
    create deployment config = .ok (m, journal) → History m { start := config.startHeight }
  | processBlock {m : Monitor} {log : Log} (b : Block) : History m log →
    History (m.processBlock b).monitor { log.add m [b] with given := log.given + 1 }
  | poll {m : Monitor} {log : Log} {σ : Type} (p : Provider σ) (chain : σ) : History m log →
    History (m.poll p chain).monitor (log.add m (polled p m chain))
  | run {m : Monitor} {log : Log} {σ : Type} (p : Provider σ) (polls : Nat) (chain : σ) :
    History m log → History (m.run p polls chain).monitor (log.add m (ranOver p polls m chain))
  | transaction {m : Monitor} {log : Log} {σ : Type} (p : Provider σ) (chain : σ) (hash : String) :
    History m log → History (m.transaction p chain hash).2.1 log
  | remember {m : Monitor} {log : Log} (tx : Transaction) :
    History m log → History (m.remember tx) log
  /-- Other tasks start it or stop it, or come to wait. -/
  | control {m : Monitor} {log : Log} (control : Control) :
    History m log → History { m with control } log

/-- How a log accounts for what has become of a new monitor. -/
structure Accounts (first : Monitor) (log : Log) (m : Monitor) : Prop where
  books : SameBooks m (first.processAll log.blocks)
  processed : log.processed = first.reports log.blocks
  given : log.given ≤ log.processed.length
  height : m.height.toNat + log.given = log.start.toNat + log.processed.length

namespace Accounts

variable {first m m' : Monitor} {log : Log}

theorem blocks_add (log : Log) (m : Monitor) (bs : List Block) :
    (log.add m bs).blocks = log.blocks ++ bs := by
  unfold Log.blocks Log.add
  rw [List.map_append, map_fst_reports]

theorem length_processed_add (log : Log) (m : Monitor) (bs : List Block) :
    (log.add m bs).processed.length = log.processed.length + bs.length := by
  unfold Log.add
  rw [List.length_append, length_reports]

/-- What holds of the log and the books when more blocks are processed. -/
theorem add (h : Accounts first log m) {bs : List Block} (hwork : SameBooks m' (m.processAll bs)) :
    SameBooks m' (first.processAll (log.add m bs).blocks) ∧
      (log.add m bs).processed = first.reports (log.add m bs).blocks := by
  rw [blocks_add, processAll_append, reports_append]
  refine ⟨hwork.trans (h.books.processAll bs), ?_⟩
  rw [← h.processed, ← h.books.reports bs]
  rfl

theorem climbs (h : Accounts first log m) {bs : List Block} (hclimbs : Climbs m bs m') :
    Accounts first (log.add m bs) m' := by
  obtain ⟨hbooks, hprocessed⟩ := h.add hclimbs.work.books
  have hgiven := h.given
  have hheight := h.height
  have hlength := length_processed_add log m bs
  refine ⟨hbooks, hprocessed, ?_, ?_⟩
  · show log.given ≤ (log.add m bs).processed.length
    omega
  · show m'.height.toNat + log.given = log.start.toNat + (log.add m bs).processed.length
    rw [hclimbs.height]
    omega

theorem give (h : Accounts first log m) (b : Block) :
    Accounts first { log.add m [b] with given := log.given + 1 } (m.processBlock b).monitor := by
  have hwork : SameBooks (m.processBlock b).monitor (m.processAll [b]) := SameBooks.refl _
  obtain ⟨hbooks, hprocessed⟩ := h.add hwork
  have hgiven := h.given
  have hheight := h.height
  have hlength := length_processed_add log m [b]
  rw [List.length_singleton] at hlength
  refine ⟨hbooks, hprocessed, ?_, ?_⟩
  · show log.given + 1 ≤ (log.add m [b]).processed.length
    omega
  · show (m.processBlock b).monitor.height.toNat + (log.given + 1)
      = log.start.toNat + (log.add m [b]).processed.length
    rw [height_processBlock]
    omega

theorem same (h : Accounts first log m) (hbooks : SameBooks m' m) (hheight : m'.height = m.height) :
    Accounts first log m' :=
  ⟨hbooks.trans h.books, h.processed, h.given, by rw [hheight]; exact h.height⟩

end Accounts

/-- Whatever was asked of a monitor, its books are those of a new one that has processed the blocks of
the log. -/
theorem History.accounts {m : Monitor} {log : Log} (h : History m log) :
    ∃ deployment config first journal,
      Monitor.create deployment config = .ok (first, journal) ∧ Accounts first log m := by
  have later {m m' : Monitor} {log log' : Log}
      (ih : ∃ deployment config first journal,
        Monitor.create deployment config = .ok (first, journal) ∧ Accounts first log m)
      (hnext : ∀ first, Accounts first log m → Accounts first log' m') :
      ∃ deployment config first journal,
        Monitor.create deployment config = .ok (first, journal) ∧ Accounts first log' m' := by
    obtain ⟨deployment, config, first, journal, hcreate, haccounts⟩ := ih
    exact ⟨deployment, config, first, journal, hcreate, hnext first haccounts⟩
  induction h with
  | @create deployment config first journal hcreate =>
    obtain ⟨tx, code, _, _, rfl⟩ := eq_of_create hcreate
    exact ⟨deployment, config, _, journal, hcreate, SameBooks.refl _, rfl, Nat.le_refl _, rfl⟩
  | processBlock b _ ih => exact later ih fun _ haccounts => haccounts.give b
  | poll p chain _ ih => exact later ih fun _ haccounts => haccounts.climbs (climbs_poll p _ chain)
  | run p polls chain _ ih =>
    exact later ih fun _ haccounts => haccounts.climbs (climbs_run p polls _ chain)
  | transaction p chain hash _ ih =>
    obtain ⟨hbooks, hheight⟩ := transaction_books p _ chain hash
    exact later ih fun _ haccounts => haccounts.same hbooks hheight
  | remember tx _ ih => exact later ih fun _ haccounts => haccounts.same ⟨rfl, rfl, rfl⟩ rfl
  | control control _ ih => exact later ih fun _ haccounts => haccounts.same ⟨rfl, rfl, rfl⟩ rfl

end Registrar.Monitor
