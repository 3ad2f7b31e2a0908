import Mathlib
import Registrar.Proofs.Chain.Cache.Coherence
import Registrar.Proofs.Monitor.EndToEnd
import Registrar.Proofs.Monitor.StoredChain
import Registrar.Proofs.Script.RoundTrip

/-!
# Look-ups do not show the cache

A monitor that looks a transaction up asks its cache first. On a chain in memory whose transactions
are known by their hashes the answer is the chain's own, whatever was scanned, looked up or evicted
before. `Stocked` carries this: all that the cache holds is on the chain. A new monitor's cache is
stocked from the chain, and polls, look-ups and new blocks keep it so.
-/

namespace Registrar.Monitor

open Chain (Block Cache Store Transaction)
open Script (Step assemble)

/-! ## A cache of what is on the chain -/

/-- A cache that holds nothing but transactions of a chain. -/
structure Stocked (s : Store) (c : Cache) : Prop where
  coherent : c.Coherent
  onChain : ∀ hash tx, c.held? hash = some tx → tx ∈ s.transactions

namespace Stocked

variable {s : Store} {c : Cache}

theorem insert (h : Stocked s c) {tx : Transaction} (htx : tx ∈ s.transactions) :
    Stocked s (c.insert tx) where
  coherent := h.coherent.insert tx
  onChain hash held hheld := by
    rw [h.coherent.held?_insert] at hheld
    split_ifs at hheld with hsame hmem
    · cases hheld
      exact htx
    · exact h.onChain hash held hheld

theorem insertAll (h : Stocked s c) {txs : List Transaction} (htxs : ∀ tx ∈ txs, tx ∈ s.transactions) :
    Stocked s (txs.foldl Cache.insert c) := by
  induction txs generalizing c with
  | nil => exact h
  | cons tx txs ih =>
    rw [List.forall_mem_cons] at htxs
    exact ih (h.insert htxs.1) htxs.2

theorem get (h : Stocked s c) (hash : String) : Stocked s (c.get hash).2 where
  coherent := h.coherent.get hash
  onChain other tx hheld := by
    rw [Cache.held?_get] at hheld
    exact h.onChain other tx hheld

/-- A new block at a free height leaves on the chain what was there. -/
theorem put (h : Stocked s c) {b : Block} (hfree : s.block? b.index = none) :
    Stocked (s.put b) c where
  coherent := h.coherent
  onChain hash tx hheld := Store.mem_transactions_put hfree (h.onChain hash tx hheld)

/-- To process blocks of the chain puts transactions of the chain in. -/
theorem processAll {m : Monitor} (h : Stocked s m.cache) {bs : List Block}
    (hbs : ∀ b ∈ bs, ∀ tx ∈ b.transactions, tx ∈ s.transactions) :
    Stocked s (m.processAll bs).cache := by
  induction bs generalizing m with
  | nil => exact h
  | cons b bs ih =>
    rw [List.forall_mem_cons] at hbs
    have hblock : Stocked s (m.processBlock b).monitor.cache := by
      rw [processBlock_monitor]
      exact h.insertAll hbs.1
    exact ih hblock hbs.2

end Stocked

/-! ## Polls and look-ups -/

/-- A poll stocks the cache from the blocks that it processes. -/
theorem Stocked.poll {m : Monitor} {s : Store} (h : Stocked s m.cache) :
    Stocked s (poll storeProvider m s).monitor.cache := by
  let serve : UInt64 → Block := fun n => (s.block? n).getD (bareBlock n)
  have hserves : Serves storeProvider serve s := by
    refine serves_store fun n b hb => ?_
    simp only [serve, hb, Option.getD_some]
  rw [(advances_poll m hserves).work.cache]
  apply h.processAll
  intro b hb tx htx
  obtain ⟨n, _, rfl⟩ := List.mem_map.mp hb
  rw [Store.mem_transactions_iff]
  rcases hblock : s.block? n with _ | b
  · simp only [serve, hblock, Option.getD_none] at htx
    cases htx
  · simp only [serve, hblock, Option.getD_some] at htx
    exact ⟨n, b, hblock, htx⟩

/-- What is held is found without a question to the provider, whoever that is. -/
theorem transaction_of_held {m : Monitor} {hash : String} {tx : Transaction}
    (hheld : m.cache.held? hash = some tx) {σ : Type} (p : Provider σ) (chain : σ) :
    m.transaction p chain hash
      = (.ok (some tx), { m with cache := (m.cache.get hash).2 }, chain) := by
  unfold transaction
  rw [Cache.get_of_some hheld]

/-- What is not held is looked up on the chain, and put into the cache if it is there. -/
theorem transaction_of_not_held {m : Monitor} {hash : String} (hheld : m.cache.held? hash = none)
    (s : Store) :
    m.transaction storeProvider s hash
      = (.ok (s.transaction? hash),
        (s.transaction? hash).elim { m with cache := (m.cache.get hash).2 }
          fun tx => { m with cache := (m.cache.get hash).2.insert tx }, s) := by
  have hreply : storeProvider.transaction hash s = (⟨.ok (s.transaction? hash), []⟩, s) := rfl
  unfold transaction
  simp only [Cache.get_of_none hheld, hreply]
  cases s.transaction? hash <;> rfl

/-- A chain in memory is not changed by a look-up. -/
theorem transaction_chain (m : Monitor) (s : Store) (hash : String) :
    (m.transaction storeProvider s hash).2.2 = s := by
  rcases hheld : m.cache.held? hash with _ | tx
  · rw [transaction_of_not_held hheld]
  · rw [transaction_of_held hheld]

section

variable {m : Monitor} {s : Store}

theorem Stocked.lookUp (h : Stocked s m.cache) (hash : String) :
    Stocked s (m.transaction storeProvider s hash).2.1.cache := by
  rcases hheld : m.cache.held? hash with _ | tx
  · rw [transaction_of_not_held hheld]
    rcases hfound : s.transaction? hash with _ | tx
    · exact h.get hash
    · exact (h.get hash).insert (List.mem_of_find?_eq_some hfound)
  · rw [transaction_of_held hheld]
    exact h.get hash

/-- A stocked cache makes no difference to the answer. -/
theorem Stocked.transaction_fst (h : Stocked s m.cache) (hs : s.Unambiguous) (hash : String) :
    (m.transaction storeProvider s hash).1 = .ok (s.transaction? hash) := by
  rcases hheld : m.cache.held? hash with _ | tx
  · rw [transaction_of_not_held hheld]
  · rw [transaction_of_held hheld, hs.transaction?_eq_some_iff.mpr
      ⟨h.onChain hash tx hheld, h.coherent.hash_eq hash tx hheld⟩]

/-- What was found is held from then on. -/
theorem Stocked.held?_lookUp (h : Stocked s m.cache) (hs : s.Unambiguous) {hash : String}
    {tx : Transaction} (hfound : s.transaction? hash = some tx) :
    (m.transaction storeProvider s hash).2.1.cache.held? hash = some tx := by
  obtain ⟨hmem, hhash⟩ := hs.transaction?_eq_some_iff.mp hfound
  rcases hheld : m.cache.held? hash with _ | held
  · rw [transaction_of_not_held hheld, hfound]
    show ((m.cache.get hash).2.insert tx).held? hash = some tx
    rw [(h.coherent.get hash).held?_insert, if_pos hhash.symm]
  · rw [transaction_of_held hheld]
    show (m.cache.get hash).2.held? hash = some tx
    rw [Cache.held?_get, hheld, hs held (h.onChain hash held hheld) tx hmem
      ((h.coherent.hash_eq hash held hheld).trans hhash.symm)]

end

/-! ## A session -/

/-- A monitor and the chain in memory that it follows. -/
structure Session where
  monitor : Monitor
  chain : Store

/-- What a session comes to when the chain is polled, when a transaction is looked up, or when a block
is put at a height of the chain that is free and brings no second transaction for a hash. -/
inductive Turn : Session → Session → Prop where
  | poll (s : Session) :
    Turn s ⟨(poll storeProvider s.monitor s.chain).monitor,
      (poll storeProvider s.monitor s.chain).chain⟩
  | lookUp (s : Session) (hash : String) :
    Turn s ⟨(transaction storeProvider s.monitor s.chain hash).2.1,
      (transaction storeProvider s.monitor s.chain hash).2.2⟩
  | push (s : Session) (b : Block) : s.chain.block? b.index = none →
    (s.chain.put b).Unambiguous → Turn s ⟨s.monitor, s.chain.put b⟩

/-- A session in which the chain is unambiguous and the cache holds nothing else. -/
def Session.Sound (s : Session) : Prop :=
  s.chain.Unambiguous ∧ Stocked s.chain s.monitor.cache

theorem Session.Sound.turn {s t : Session} (h : s.Sound) (hturn : Turn s t) : t.Sound := by
  obtain ⟨hchain, hcache⟩ := h
  cases hturn with
  | poll =>
    rw [chain_poll]
    exact ⟨hchain, hcache.poll⟩
  | lookUp hash =>
    rw [transaction_chain]
    exact ⟨hchain, hcache.lookUp hash⟩
  | push b hfree hput => exact ⟨hput, hcache.put hfree⟩

/-- The cache of a new monitor is stocked with the deployment. -/
theorem stocked_of_connect {s chain : Store} {hash : String} {config : Config} {m : Monitor}
    {journal : Journal} (h : connect storeProvider s hash config = (.ok (m, journal), chain)) :
    chain = s ∧ Stocked s m.cache := by
  have hreply : storeProvider.transaction hash s = (⟨.ok (s.transaction? hash), []⟩, s) := rfl
  unfold connect at h
  simp only [hreply] at h
  rcases hfound : s.transaction? hash with _ | tx
  · rw [hfound] at h
    cases h
  · rw [hfound] at h
    obtain ⟨hcreate, hchain⟩ := Prod.mk.inj h
    obtain ⟨_, code, hdeployment, _, rfl⟩ := eq_of_create hcreate
    cases hdeployment
    have hempty : Stocked s (Cache.withCapacity config.cacheCapacity) := by
      constructor
      · exact Cache.Coherent.withCapacity _
      · intro other held hheld
        rw [(Cache.Coherent.withCapacity _).held?_eq_none_iff.mpr List.not_mem_nil] at hheld
        cases hheld
    exact ⟨hchain.symm, hempty.insert (List.mem_of_find?_eq_some hfound)⟩

/-- What any number of turns make of a session. -/
def Turns : Session → Session → Prop :=
  Relation.ReflTransGen Turn

/-- **The cache does not show.** A monitor was made for a deployment on a chain in memory, and since
then the chain was polled, transactions were looked up and blocks were put on the chain, in any order
and however often. Then a look-up answers what the chain itself answers, and what is found has the
hash that was asked for. If it is asked again no provider is asked: whichever there is gives the same
answer and stays as it is. -/
theorem lookup_transparent {store chain : Store} (hstore : store.Unambiguous) {deployment : String}
    {config : Config} {m : Monitor} {journal : Journal}
    (hconnect : connect storeProvider store deployment config = (.ok (m, journal), chain))
    {s : Session} (hturns : Turns ⟨m, chain⟩ s) (hash : String) :
    let asked := s.monitor.transaction storeProvider s.chain hash
    asked.1 = .ok (s.chain.transaction? hash)
      ∧ asked.2.2 = s.chain
      ∧ ∀ tx, s.chain.transaction? hash = some tx → tx.hash = hash
        ∧ ∀ {σ : Type} (p : Provider σ) (there : σ),
          ∃ m', asked.2.1.transaction p there hash = (.ok (some tx), m', there) := by
  have hsound : s.Sound := by
    obtain ⟨rfl, hcache⟩ := stocked_of_connect hconnect
    induction hturns with
    | refl => exact ⟨hstore, hcache⟩
    | tail _ hlast ih => exact ih.turn hlast
  obtain ⟨hchain, hcache⟩ := hsound
  refine ⟨hcache.transaction_fst hchain hash, transaction_chain _ _ hash, ?_⟩
  intro tx hfound
  refine ⟨(hchain.transaction?_eq_some_iff.mp hfound).2, ?_⟩
  intro σ p there
  exact ⟨_, transaction_of_held (hcache.held?_lookUp hchain hfound) p there⟩

/-- The deployment of a contract of one instruction. -/
def chainedDeployment : Transaction :=
  ⟨"d", .invocation, assemble [.deploy [0x51] "mail"]⟩

/-- A chain of one block with the deployment. -/
def deploymentChain : Store :=
  Store.ofBlocks [{ bareBlock 1 with transactions := [chainedDeployment] }]

/-- A block above it with another transaction. -/
def laterBlock : Block :=
  { bareBlock 2 with transactions := [⟨"t", .miner, []⟩] }

/-- In a cache for one transaction the later block takes the place of the deployment, which is found
all the same. -/
theorem lookup_transparent_evicted :
    ∃ m journal s,
      connect storeProvider deploymentChain "d" { cacheCapacity := 0 }
        = (.ok (m, journal), deploymentChain) ∧
      Turns ⟨m, deploymentChain⟩ s ∧ s.chain = deploymentChain.put laterBlock ∧
      (s.monitor.transaction storeProvider s.chain "d").1 = .ok (some chainedDeployment) ∧
      (s.monitor.transaction storeProvider s.chain "t").1 = .ok (some ⟨"t", .miner, []⟩) := by
  have hdeploy : (Step.deploy [0x51] "mail").Fits := by
    apply Step.Buildable.fits
    · decide
    · trivial
  obtain ⟨m, journal, hcreate, _⟩ :=
    create_deploy (List.cons_ne_nil _ _) hdeploy (show chainedDeployment.script = _ from rfl)
      { cacheCapacity := 0 }
  have hconnect : connect storeProvider deploymentChain "d" { cacheCapacity := 0 }
      = (.ok (m, journal), deploymentChain) := by
    rw [← hcreate]
    rfl
  have hbefore : deploymentChain.Unambiguous := by
    have htxs : deploymentChain.transactions = [chainedDeployment] := rfl
    simp [Store.Unambiguous, htxs]
  have hafter : (deploymentChain.put laterBlock).Unambiguous := by
    have htxs : (deploymentChain.put laterBlock).transactions
        = [chainedDeployment, ⟨"t", .miner, []⟩] := rfl
    simp [Store.Unambiguous, htxs, chainedDeployment]
  have hpoll (n : Monitor) (chain : Store) :
      Turn ⟨n, chain⟩ ⟨(poll storeProvider n chain).monitor, chain⟩ := by
    have hturn := Turn.poll ⟨n, chain⟩
    rwa [chain_poll] at hturn
  have hturns := (((Relation.ReflTransGen.single (hpoll m deploymentChain)).tail
    (Turn.push _ laterBlock rfl hafter)).tail (hpoll _ _))
  exact ⟨m, journal, _, hconnect, hturns, rfl,
    (lookup_transparent hbefore hconnect hturns "d").1,
    (lookup_transparent hbefore hconnect hturns "t").1⟩

end Registrar.Monitor
