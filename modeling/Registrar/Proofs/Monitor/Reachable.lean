import Mathlib
import Registrar.Monitor.Run
import Registrar.Proofs.Monitor.Scanning

/-!
# What can become of a monitor

Polls, runs, look-ups and the requests of other tasks all come down to a few moves: a block is
processed, the next height counts as processed, the cache changes, or the control does. So what
holds of a new monitor and is kept by each move holds of a monitor whatever has been done with it.
-/

namespace Registrar.Monitor

open Chain (Block Cache Transaction)

/-! ## Moves -/

/-- The least that can happen to a monitor. -/
inductive Move : Monitor → Monitor → Prop where
  /-- Other tasks started it or stopped it, or wait to stop it. -/
  | control (m : Monitor) (control : Control) : Move m { m with control }
  /-- Transactions were looked up in its cache or put into it. -/
  | cache (m : Monitor) (cache : Cache) : Move m { m with cache }
  /-- A block was processed. -/
  | block (m : Monitor) (b : Block) : Move m (m.processBlock b).monitor
  /-- The height after the last one counts as processed. -/
  | height (m : Monitor) {goal : UInt64} : m.height < goal →
    Move m { m with height := m.height + 1 }

/-- Any number of moves. -/
def Moves : Monitor → Monitor → Prop :=
  Relation.ReflTransGen Move

namespace Moves

theorem refl (m : Monitor) : Moves m m :=
  Relation.ReflTransGen.refl

theorem single {m m' : Monitor} (h : Move m m') : Moves m m' :=
  Relation.ReflTransGen.single h

theorem trans {m m' m'' : Monitor} (h : Moves m m') (h' : Moves m' m'') : Moves m m'' :=
  Relation.ReflTransGen.trans h h'

/-- To meet requests is a matter of the control. -/
theorem heed (m : Monitor) (requests : List Request) : Moves m (m.heed requests) :=
  single (Move.control m _)

/-- To catch up is to process blocks and to let their heights count. -/
theorem catchUp {σ : Type} (p : Provider σ) (goal : UInt64) (m : Monitor) (chain : σ) :
    Moves m (catchUp p goal m chain).monitor := by
  fun_induction Monitor.catchUp p goal m chain with
  | case1 m chain hlt next reply chain' hreply m' cause hanswer => exact heed m reply.requests
  | case2 m chain hlt next reply chain' hreply m' hanswer => exact heed m reply.requests
  | case3 m chain hlt next reply chain' hreply m' b hanswer processed rest ih =>
    have hblock : Moves m' processed.monitor := single (Move.block m' b)
    have hsame : processed.monitor.height = m.height := height_processBlock m' b
    have hheight : Moves processed.monitor { processed.monitor with height := next } := by
      rw [← hsame] at hlt
      have hmove := Move.height processed.monitor hlt
      rw [hsame] at hmove
      exact single hmove
    exact (heed m reply.requests).trans (hblock.trans (hheight.trans ih))
  | case4 m chain hlt => exact refl m

theorem poll {σ : Type} (p : Provider σ) (m : Monitor) (chain : σ) :
    Moves m (poll p m chain).monitor := by
  unfold Monitor.poll
  obtain ⟨reply, chain'⟩ := p.height chain
  simp only
  cases reply.answer with
  | error cause => exact heed m reply.requests
  | ok goal => exact (heed m reply.requests).trans (catchUp p goal _ chain')

/-- A run is polls with changes of the control between them and at its end. -/
theorem runOn {σ : Type} (p : Provider σ) (polls : Nat) (m : Monitor) (chain : σ) :
    Moves m (runOn p polls m chain).monitor := by
  induction polls generalizing m chain with
  | zero =>
    unfold Monitor.runOn
    split <;> exact refl m
  | succ polls ih =>
    unfold Monitor.runOn
    split
    · simp only
      have hpoll := poll p m chain
      cases (Monitor.poll p m chain).result with
      | error cause => exact hpoll.trans (single (Move.control _ _))
      | ok count => exact hpoll.trans ((single (Move.control _ _)).trans (ih _ _))
    · exact refl m

theorem run {σ : Type} (p : Provider σ) (polls : Nat) (m : Monitor) (chain : σ) :
    Moves m (run p polls m chain).monitor :=
  (single (Move.control m _)).trans (runOn p polls _ chain)

/-- A look-up changes the cache, and the control when the provider is asked. -/
theorem transaction {σ : Type} (p : Provider σ) (m : Monitor) (chain : σ) (hash : String) :
    Moves m (transaction p m chain hash).2.1 := by
  unfold Monitor.transaction
  obtain ⟨found, cache⟩ := m.cache.get hash
  cases found with
  | some tx => exact single (Move.cache m cache)
  | none =>
    obtain ⟨reply, chain'⟩ := p.transaction hash chain
    have hasked : Moves m (Monitor.heed { m with cache } reply.requests) :=
      (single (Move.cache m cache)).trans (heed _ reply.requests)
    simp only
    cases reply.answer with
    | error cause => exact hasked
    | ok answer =>
      cases answer with
      | none => exact hasked
      | some tx => exact hasked.trans (single (Move.cache _ _))

end Moves

/-! ## Reachable monitors -/

/-- What can have become of a monitor since it was made, by whatever was asked of it and of whatever
providers. -/
inductive Reachable : Monitor → Prop where
  | create {deployment : Option Transaction} {config : Config} {m : Monitor} {journal : Journal} :
    create deployment config = .ok (m, journal) → Reachable m
  | processBlock {m : Monitor} (b : Block) : Reachable m → Reachable (m.processBlock b).monitor
  | poll {m : Monitor} {σ : Type} (p : Provider σ) (chain : σ) :
    Reachable m → Reachable (m.poll p chain).monitor
  | run {m : Monitor} {σ : Type} (p : Provider σ) (polls : Nat) (chain : σ) :
    Reachable m → Reachable (m.run p polls chain).monitor
  | transaction {m : Monitor} {σ : Type} (p : Provider σ) (chain : σ) (hash : String) :
    Reachable m → Reachable (m.transaction p chain hash).2.1
  | remember {m : Monitor} (tx : Transaction) : Reachable m → Reachable (m.remember tx)
  /-- Other tasks start it or stop it, or come to wait. -/
  | control {m : Monitor} (control : Control) : Reachable m → Reachable { m with control }

/-- A reachable monitor was made at some time, and the rest are moves. -/
theorem Reachable.exists_moves {m : Monitor} (h : Reachable m) :
    ∃ deployment config first journal,
      Monitor.create deployment config = .ok (first, journal) ∧ Moves first m := by
  have later {m m' : Monitor} (hmoves : Moves m m')
      (ih : ∃ deployment config first journal,
        Monitor.create deployment config = .ok (first, journal) ∧ Moves first m) :
      ∃ deployment config first journal,
        Monitor.create deployment config = .ok (first, journal) ∧ Moves first m' := by
    obtain ⟨deployment, config, first, journal, hcreate, hbefore⟩ := ih
    exact ⟨deployment, config, first, journal, hcreate, hbefore.trans hmoves⟩
  induction h with
  | create hcreate => exact ⟨_, _, _, _, hcreate, Moves.refl _⟩
  | processBlock b _ ih => exact later (Moves.single (Move.block _ b)) ih
  | poll p chain _ ih => exact later (Moves.poll p _ chain) ih
  | run p polls chain _ ih => exact later (Moves.run p polls _ chain) ih
  | transaction p chain hash _ ih => exact later (Moves.transaction p _ chain hash) ih
  | remember tx _ ih => exact later (Moves.single (Move.cache _ _)) ih
  | control control _ ih => exact later (Moves.single (Move.control _ control)) ih

/-- What holds of each new monitor and is kept by each move holds of every reachable one. -/
theorem Reachable.invariant {motive : Monitor → Prop}
    (hcreate : ∀ deployment config m journal,
      Monitor.create deployment config = .ok (m, journal) → motive m)
    (hmove : ∀ m m', motive m → Move m m' → motive m') {m : Monitor} (h : Reachable m) :
    motive m := by
  obtain ⟨deployment, config, first, journal, hfirst, hmoves⟩ := h.exists_moves
  clear h
  induction hmoves with
  | refl => exact hcreate _ _ _ _ hfirst
  | tail _ hlast ih => exact hmove _ _ ih hlast

end Registrar.Monitor
